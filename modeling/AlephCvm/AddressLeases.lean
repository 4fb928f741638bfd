import AlephCvm.StepRuns
import AlephCvm.VmPrograms
import AlephCvm.VmRecovery

/-!
# Addresses of machines that are created at the same time

`create_vm` takes an offset under the lock of the ledger and registers the
machine under the lock of the machine table, with everything else in between.
`delete_vm` removes the machine first and returns its offset last.  An offset
is therefore owned by a machine of the table or by a call, and the two hand it
over to each other.

The invariant is that no offset has two owners and that the ledger holds all
owned offsets.  It needs nothing of the order in which calls act; what it
needs is that the recovered machines start with different offsets.
-/

namespace AlephCvm.Vm.Concurrent

open ResultContext StepRuns TableFolds AtomicPrograms AlephCvm.Tee
open AlephCvm.Numa AlephCvm.Net AlephCvm.Nft AlephCvm.Qemu

/-! ## The protocol -/

/-- The offset that a call has taken for a new machine, or has taken over
from a removed one. -/
inductive Lease where
  | none
  | creating (offset : UInt8)
  | deleting (offset : UInt8)
  deriving DecidableEq, Repr

def Lease.offset : Lease → Option UInt8
  | .none => Option.none
  | .creating offset => some offset
  | .deleting offset => some offset

variable (cfg : NodeConfig)

def leases : Protocol Call Action Response Reply Lease where
  start := fun _ => .none
  next := fun lease action response =>
    match action, response with
    | .takeOffset, some offset => .creating offset
    | .insertVm _ _, _ => .none
    | .removeVm _, some handle =>
        .deleting (ipOffset cfg.gatewayIp handle.ip)
    | .returnOffset _, _ => .none
    | _, _ => lease
  allowed := fun lease action =>
    match action with
    | .takeOffset => lease = .none
    | .insertVm _ handle => ∃ offset, lease = .creating offset ∧
        handle.ip = allocateVmIp cfg.gatewayIp offset
    | .removeVm _ => lease = .none
    | .returnOffset offset => lease = .deleting offset
    | _ => True
  admits := fun _ _ => True
  returns := fun _ _ => True

theorem leases_neutral (lease : Lease) :
    (leases cfg).Neutral
      (fun action => [Resource.machines, .offsets].contains
        action.resource = false) lease := by
  intro action hother
  cases action with
  | takeOffset => cases hother
  | returnOffset offset => cases hother
  | removeVm id => cases hother
  | insertVm id handle => cases hother
  | _ => exact ⟨trivial, fun _ _ => rfl⟩

theorem launchVm_leases
    (launch : Launch) (offset : UInt8) (macAddr : String)
    (vmIpv6 : Option Ipv6Net) :
    (launchVm cfg launch (allocateVmIp cfg.gatewayIp offset) macAddr
      vmIpv6).Follows (leases cfg) (fun _ _ => True)
      (.creating offset) := by
  unfold launchVm
  refine Program.follows_action_bind.mpr ⟨trivial, fun started _ => ?_⟩
  cases started with
  | error message =>
      exact Uses.skip (undoLaunch_uses cfg launch _ vmIpv6)
        (leases_neutral cfg _) rfl fun _ _ => trivial
  | ok done =>
      refine Program.follows_action_bind.mpr ⟨trivial, fun now _ => ?_⟩
      refine Uses.skip (saveVm_uses _ _) (leases_neutral cfg _) rfl
        fun _ _ => ?_
      refine Program.follows_action_bind.mpr ⟨trivial, fun current _ => ?_⟩
      exact Program.follows_action_bind.mpr
        ⟨⟨offset, rfl, rfl⟩, fun _ _ => trivial⟩

theorem createVm_leases
    (config : VmConfig) (requestedIpv6 : Option Ipv6Net)
    (numaHint : Option UInt32) :
    (createVm cfg config requestedIpv6 numaHint).Follows (leases cfg)
      (fun _ _ => True) .none := by
  apply createVm_follows cfg [.machines, .offsets] Lease.creating
  · exact ⟨trivial, fun _ _ => rfl⟩
  · rfl
  · rfl
  · exact fun _ => rfl
  · exact fun offset => leases_neutral cfg (.creating offset)
  · rfl
  · exact fun _ => trivial
  · exact fun _ _ => trivial
  · intro offset launch macAddr vmIpv6 _
    exact launchVm_leases cfg launch offset macAddr vmIpv6

theorem deleteHandle_leases (id : String) (handle : VmHandle) :
    (deleteHandle cfg id handle).Follows (leases cfg) (fun _ _ => True)
      (.deleting (ipOffset cfg.gatewayIp handle.ip)) := by
  unfold deleteHandle
  refine Uses.skip (stopProcess_uses _) (leases_neutral cfg _) rfl
    fun _ _ => ?_
  refine Uses.skip (releaseNuma_uses _) (leases_neutral cfg _) rfl
    fun _ _ => ?_
  refine Program.follows_action_bind.mpr ⟨trivial, fun removed _ => ?_⟩
  refine Uses.skip (removeForwardRules_uses cfg 0 removed)
    (leases_neutral cfg _) rfl fun _ _ => ?_
  refine Uses.skip (dropIpv6_uses cfg id handle) (leases_neutral cfg _) rfl
    fun _ _ => ?_
  refine Uses.skip (teardownVm_uses cfg id) (leases_neutral cfg _) rfl
    fun _ _ => ?_
  refine Program.follows_action_bind.mpr ⟨trivial, fun _ _ => ?_⟩
  refine Uses.skip (removeReservations_uses cfg _ _) (leases_neutral cfg _)
    rfl fun _ _ => ?_
  refine Program.follows_action_bind.mpr ⟨rfl, fun _ _ => ?_⟩
  refine Program.follows_action_bind.mpr ⟨trivial, fun _ _ => ?_⟩
  exact ⟨trivial, fun _ _ => trivial⟩

theorem deleteVm_leases (id : String) :
    (deleteVm cfg id).Follows (leases cfg) (fun _ _ => True) .none := by
  unfold deleteVm
  refine Program.follows_action_bind.mpr ⟨rfl, fun found _ => ?_⟩
  cases found with
  | none => trivial
  | some handle =>
      exact Program.follows_bind.mpr
        ((deleteHandle_leases cfg id handle).mono fun _ _ _ => trivial)

theorem program_leases (call : Call) :
    (program cfg call).Follows (leases cfg) (leases cfg).returns
      ((leases cfg).start call) := by
  cases call with
  | createVm config requestedIpv6 numaHint =>
      exact Program.follows_bind.mpr
        (createVm_leases cfg config requestedIpv6 numaHint)
  | deleteVm id => exact Program.follows_bind.mpr (deleteVm_leases cfg id)
  | addPortForward vmId hostPort vmPort protocol =>
      exact Uses.skip
        (addPortForward_uses cfg vmId hostPort vmPort protocol)
        (leases_neutral cfg _) rfl fun _ _ => trivial
  | removePortForward hostPort protocol =>
      exact Uses.skip (removePortForward_uses cfg hostPort protocol)
        (leases_neutral cfg _) rfl fun _ _ => trivial

/-! ## One action -/

variable {cfg}

/-- The machines of the table have different offsets, all of them in the
ledger. -/
structure Shared.OffsetsOwned (shared : Shared cfg) : Prop where
  used : ∀ id handle, shared.node.vms.lookup id = some handle →
    ipOffset cfg.gatewayIp handle.ip ∈ shared.node.usedIpOffsets
  distinct : ∀ id other handle otherHandle,
    shared.node.vms.lookup id = some handle →
    shared.node.vms.lookup other = some otherHandle →
    ipOffset cfg.gatewayIp handle.ip =
      ipOffset cfg.gatewayIp otherHandle.ip → id = other

/-- The offset of a call is in the ledger and no machine has it. -/
structure Shared.LeaseOwned (shared : Shared cfg) (offset : UInt8) :
    Prop where
  used : offset ∈ shared.node.usedIpOffsets
  free : ∀ id handle, shared.node.vms.lookup id = some handle →
    ipOffset cfg.gatewayIp handle.ip ≠ offset

def offsetOwners (cfg : NodeConfig) :
    Assertions (Shared cfg) Lease Unit where
  globally := Shared.OffsetsOwned
  locally := fun shared lease => ∀ offset, lease.offset = some offset →
    shared.LeaseOwned offset
  apart := fun lease other => ∀ offset, lease.offset = some offset →
    other.offset ≠ some offset
  needs := fun _ _ => False
  holds := fun _ _ _ => False
  apart_symm := by
    intro lease other hapart offset hoffset hsame
    exact hapart offset hsame hoffset

theorem keeps_of_same
    {guard : Lease → Prop} {shared reached : Shared cfg} {lease : Lease}
    (hvms : reached.node.vms = shared.node.vms)
    (hused : reached.node.usedIpOffsets = shared.node.usedIpOffsets)
    (howned : shared.OffsetsOwned)
    (hlease : (offsetOwners cfg).locally shared lease) :
    (offsetOwners cfg).Keeps guard shared lease reached lease := by
  refine Assertions.Keeps.frame ?_ ?_ (fun _ h => h) (fun _ _ h => h)
    hlease
  · constructor
    · rw [hvms, hused]
      exact howned.used
    · rw [hvms]
      exact howned.distinct
  · intro other hother offset hoffset
    obtain ⟨hmem, hfree⟩ := hother offset hoffset
    constructor
    · rw [hused]
      exact hmem
    · rw [hvms]
      exact hfree

theorem takeOffset_keeps
    {guard : Lease → Prop} {shared : Shared cfg} {offset : UInt8}
    (hfree : freeOffset shared.node.usedIpOffsets = some offset)
    (howned : shared.OffsetsOwned) :
    (offsetOwners cfg).Keeps guard shared .none
      { shared with node := shared.node.takeOffset offset }
      (.creating offset) := by
  have hfresh := freeOffset_notMem hfree
  refine ⟨?_, ?_, ?_, fun _ h => h.elim, fun _ _ _ _ _ h => h.elim⟩
  · exact ⟨fun id handle hlookup =>
      Finset.mem_insert_of_mem (howned.used id handle hlookup),
      howned.distinct⟩
  · intro taken htaken
    cases htaken
    constructor
    · exact Finset.mem_insert_self _ _
    · intro id handle hlookup hsame
      exact hfresh (hsame ▸ howned.used id handle hlookup)
  · intro other _ hother _
    constructor
    · intro held hheld
      obtain ⟨hmem, hothers⟩ := hother held hheld
      exact ⟨Finset.mem_insert_of_mem hmem, hothers⟩
    · intro taken htaken hheld
      cases htaken
      exact hfresh (hother offset hheld).used

theorem insertVm_keeps
    {guard : Lease → Prop} {shared : Shared cfg} {offset : UInt8}
    {id : String} {handle : VmHandle} (howned : shared.OffsetsOwned)
    (hlease : shared.LeaseOwned offset)
    (hip : handle.ip = allocateVmIp cfg.gatewayIp offset) :
    (offsetOwners cfg).Keeps guard shared (.creating offset)
      { shared with
        node := { shared.node with
          vms := shared.node.vms.insert id handle } } .none := by
  have hoffset : ipOffset cfg.gatewayIp handle.ip = offset := by
    rw [hip, ipOffset_allocateVmIp]
  refine ⟨⟨?_, ?_⟩, ?_, ?_, fun _ h => h.elim,
    fun _ _ _ _ _ h => h.elim⟩
  · intro found foundHandle hlookup
    rcases lookup_insert_iff.mp hlookup with ⟨_, hnew⟩ | ⟨_, hold⟩
    · rw [hnew, hoffset]
      exact hlease.used
    · exact howned.used found foundHandle hold
  · intro first second firstHandle secondHandle hfirst hsecond hsame
    rcases lookup_insert_iff.mp hfirst with ⟨hid, hnew⟩ | ⟨_, hold⟩
    · rcases lookup_insert_iff.mp hsecond with ⟨hid', _⟩ | ⟨_, hold'⟩
      · rw [hid, hid']
      · rw [hnew, hoffset] at hsame
        exact absurd hsame.symm (hlease.free second secondHandle hold')
    · rcases lookup_insert_iff.mp hsecond with ⟨_, hnew'⟩ | ⟨_, hold'⟩
      · rw [hnew', hoffset] at hsame
        exact absurd hsame (hlease.free first firstHandle hold)
      · exact howned.distinct first second firstHandle secondHandle hold
          hold' hsame
  · intro held hheld
    cases hheld
  · intro other _ hother hapart
    constructor
    · intro held hheld
      refine ⟨(hother held hheld).used, ?_⟩
      intro found foundHandle hlookup
      rcases lookup_insert_iff.mp hlookup with ⟨_, hnew⟩ | ⟨_, hold⟩
      · rw [hnew, hoffset]
        intro hsame
        exact hapart offset rfl (hsame ▸ hheld)
      · exact (hother held hheld).free found foundHandle hold
    · intro held hheld
      cases hheld

theorem removeVm_keeps
    {guard : Lease → Prop} {shared : Shared cfg} {id : String}
    {handle : VmHandle} (howned : shared.OffsetsOwned)
    (hlookup : shared.node.vms.lookup id = some handle) :
    (offsetOwners cfg).Keeps guard shared .none
      { shared with
        node := { shared.node with vms := shared.node.vms.erase id }
        vmsLocked := true }
      (.deleting (ipOffset cfg.gatewayIp handle.ip)) := by
  refine ⟨⟨?_, ?_⟩, ?_, ?_, fun _ h => h.elim,
    fun _ _ _ _ _ h => h.elim⟩
  · intro found foundHandle hfound
    exact howned.used found foundHandle (lookup_erase_iff.mp hfound).2
  · intro first second firstHandle secondHandle hfirst hsecond
    exact howned.distinct first second firstHandle secondHandle
      (lookup_erase_iff.mp hfirst).2 (lookup_erase_iff.mp hsecond).2
  · intro held hheld
    cases hheld
    refine ⟨howned.used id handle hlookup, ?_⟩
    intro found foundHandle hfound hsame
    obtain ⟨hne, hold⟩ := lookup_erase_iff.mp hfound
    exact hne (howned.distinct found id foundHandle handle hold hlookup
      hsame)
  · intro other _ hother _
    constructor
    · intro held hheld
      refine ⟨(hother held hheld).used, ?_⟩
      intro found foundHandle hfound
      exact (hother held hheld).free found foundHandle
        (lookup_erase_iff.mp hfound).2
    · intro held hheld hsame
      cases hheld
      exact (hother _ hsame).free id handle hlookup rfl

theorem returnOffset_keeps
    {guard : Lease → Prop} {shared : Shared cfg} {offset : UInt8}
    (howned : shared.OffsetsOwned) (hlease : shared.LeaseOwned offset) :
    (offsetOwners cfg).Keeps guard shared (.deleting offset)
      { shared with
        node := { shared.node with
          usedIpOffsets := shared.node.usedIpOffsets.erase offset } }
      .none := by
  refine ⟨⟨?_, howned.distinct⟩, ?_, ?_,
    fun _ h => h.elim, fun _ _ _ _ _ h => h.elim⟩
  · intro id handle hlookup
    exact Finset.mem_erase.mpr ⟨hlease.free id handle hlookup,
      howned.used id handle hlookup⟩
  · intro held hheld
    cases hheld
  · intro other _ hother hapart
    constructor
    · intro held hheld
      refine ⟨Finset.mem_erase.mpr ⟨?_, (hother held hheld).used⟩,
        (hother held hheld).free⟩
      intro hsame
      exact hapart offset rfl (hsame ▸ hheld)
    · intro held hheld
      cases hheld

/-- No action of a call gives an offset a second owner. -/
theorem exec_keeps_offsetOwners
    {guard : Lease → Prop} {outcome : Outcome} {action : Action}
    {shared reached : Shared cfg} {lease : Lease}
    {response : Response action} (howned : shared.OffsetsOwned)
    (hlease : (offsetOwners cfg).locally shared lease)
    (hallowed : (leases cfg).allowed lease action)
    (hexec : exec outcome action shared = some (response, reached)) :
    (offsetOwners cfg).Keeps guard shared lease reached
      ((leases cfg).next lease action response) := by
  have hsame := exec_sameExcept hexec
  cases action with
  | takeOffset =>
      have hlease : lease = .none := hallowed
      subst hlease
      have hresult : shared.takeOffset = (response, reached) :=
        Option.some.inj hexec
      unfold Shared.takeOffset at hresult
      cases hfree : freeOffset shared.node.usedIpOffsets with
      | none =>
          rw [hfree] at hresult
          cases hresult
          exact keeps_of_same rfl rfl howned hlease
      | some offset =>
          rw [hfree] at hresult
          cases hresult
          exact takeOffset_keeps hfree howned
  | returnOffset offset =>
      have hdeleting : lease = .deleting offset := hallowed
      subst hdeleting
      cases hexec
      exact returnOffset_keeps howned (hlease offset rfl)
  | removeVm id =>
      have hnone : lease = .none := hallowed
      subst hnone
      cases exec_removeVm_effect hexec with
      | missing hmissing => exact keeps_of_same rfl rfl howned hlease
      | removed handle hlookup => exact removeVm_keeps howned hlookup
  | insertVm id handle =>
      obtain ⟨offset, hcreating, hip⟩ := hallowed
      subst hcreating
      cases (unlessLocked_eq_some.mp hexec).2
      exact insertVm_keeps howned (hlease offset rfl) hip
  | unlockVms =>
      cases hexec
      exact keeps_of_same rfl rfl howned hlease
  | _ =>
      exact keeps_of_same (hsame.vms nofun) (hsame.usedIpOffsets nofun)
        howned hlease

/-! ## Runs -/

theorem step_keeps_offsetOwners
    {system : System cfg} {event : Event}
    (hkept : system.Kept (leases cfg) (offsetOwners cfg))
    (halive : event.isCrash = false) :
    (step system event).Kept (leases cfg) (offsetOwners cfg) := by
  cases event with
  | call call =>
      apply hkept.call (program_leases cfg call)
      · intro offset hoffset
        cases hoffset
      · intro other offset _ hoffset
        cases hoffset
  | advance index outcome =>
      have hmeets : system.Meets exec (leases cfg)
          (fun _ _ _ _ _ => True) (fun _ _ _ _ _ _ => True) index outcome :=
        fun _ _ => ⟨trivial, fun _ _ => trivial⟩
      apply Pool.Kept.advance _ _ hkept hmeets
      · exact fun _ _ _ => trivial
      · intro shared outcome lease action response reached howned hlease
          hallowed hexec _
        exact exec_keeps_offsetOwners howned hlease hallowed hexec
  | unit id state =>
      refine ⟨hkept.follows, ?_⟩
      rw [step, Shared.evolveUnit_eq]
      refine hkept.hold.environment ?_ ?_ (fun _ h => h) (fun _ _ h => h)
      · exact ⟨hkept.hold.globally.used, hkept.hold.globally.distinct⟩
      · intro lease hlease offset hoffset
        exact ⟨(hlease offset hoffset).used, (hlease offset hoffset).free⟩
  | crash calls => cases halive

theorem run_keeps_offsetOwners
    {system : System cfg} {events : List Event}
    (hkept : system.Kept (leases cfg) (offsetOwners cfg))
    (halive : ∀ event ∈ events, event.isCrash = false) :
    (run step system events).Kept (leases cfg) (offsetOwners cfg) := by
  induction events generalizing system with
  | nil => exact hkept
  | cons event rest ih =>
      apply ih
      · exact step_keeps_offsetOwners hkept
          (halive event List.mem_cons_self)
      · intro other hother
        exact halive other (List.mem_cons_of_mem event hother)

/-! ## Addresses and offsets -/

/-- The MAC address determines the last octet, whatever it drops. -/
theorem ipOffset_eq_of_macForVmIp_eq
    {gatewayIp ip other : Ipv4Addr}
    (hmac : macForVmIp ip = macForVmIp other) :
    ipOffset gatewayIp ip = ipOffset gatewayIp other := by
  have hlists := congrArg String.toList hmac
  simp only [macForVmIp, toString, String.toList_append] at hlists
  have hlast := List.append_inj_right' hlists (by simp [hexEncode])
  have hoctet := hexEncode_byte_injective (String.toList_inj.mp hlast)
  unfold ipOffset
  rw [hoctet]

theorem distinct_of_ipOffset_ne
    {gatewayIp ip other : Ipv4Addr}
    (hne : ipOffset gatewayIp ip ≠ ipOffset gatewayIp other) :
    ip ≠ other ∧ macForVmIp ip ≠ macForVmIp other := by
  constructor
  · intro hsame
    exact hne (congrArg (ipOffset gatewayIp) hsame)
  · intro hmac
    exact hne (ipOffset_eq_of_macForVmIp_eq hmac)

/-! ## Owners of addresses -/

/-- A machine of the table, or a call that has taken an offset for a machine
and has not registered it. -/
inductive Owner where
  | machine (id : String)
  | call (index : ℕ)
  deriving DecidableEq, Repr

def addressOf (system : System cfg) : Owner → Option Ipv4Addr
  | .machine id => (system.shared.node.vms.lookup id).map VmHandle.ip
  | .call index =>
      match (system.ghosts (leases cfg))[index]? with
      | some (.creating offset) =>
          some (allocateVmIp cfg.gatewayIp offset)
      | _ => none

/-- Different owners have different addresses. -/
def AddressesDistinct (system : System cfg) : Prop :=
  ∀ owner other ip otherIp, owner ≠ other →
    addressOf system owner = some ip →
    addressOf system other = some otherIp →
      ip ≠ otherIp ∧ macForVmIp ip ≠ macForVmIp otherIp

theorem addressOf_call_eq_some
    {system : System cfg} {index : ℕ} {ip : Ipv4Addr}
    (haddress : addressOf system (.call index) = some ip) :
    ∃ offset, (system.ghosts (leases cfg))[index]? =
        some (.creating offset) ∧
      ip = allocateVmIp cfg.gatewayIp offset := by
  simp only [addressOf] at haddress
  split at haddress
  · rename_i offset hlease
    exact ⟨offset, hlease, (Option.some.inj haddress).symm⟩
  · cases haddress

theorem addressOf_machine_eq_some
    {system : System cfg} {id : String} {ip : Ipv4Addr}
    (haddress : addressOf system (.machine id) = some ip) :
    ∃ handle, system.shared.node.vms.lookup id = some handle ∧
      handle.ip = ip :=
  Option.map_eq_some_iff.mp haddress

theorem machine_ne_call
    {system : System cfg}
    (hkept : system.Kept (leases cfg) (offsetOwners cfg))
    {id : String} {index : ℕ} {ip otherIp : Ipv4Addr}
    (hmachine : addressOf system (.machine id) = some ip)
    (hcall : addressOf system (.call index) = some otherIp) :
    ipOffset cfg.gatewayIp ip ≠ ipOffset cfg.gatewayIp otherIp := by
  obtain ⟨handle, hlookup, rfl⟩ := addressOf_machine_eq_some hmachine
  obtain ⟨offset, hlease, rfl⟩ := addressOf_call_eq_some hcall
  rw [ipOffset_allocateVmIp]
  have hlocal := hkept.hold.locally _ (List.mem_of_getElem? hlease)
  exact (hlocal offset rfl).free id handle hlookup

theorem call_ne_call
    {system : System cfg}
    (hkept : system.Kept (leases cfg) (offsetOwners cfg))
    {index other : ℕ} {ip otherIp : Ipv4Addr} (hne : index ≠ other)
    (hcall : addressOf system (.call index) = some ip)
    (hother : addressOf system (.call other) = some otherIp) :
    ipOffset cfg.gatewayIp ip ≠ ipOffset cfg.gatewayIp otherIp := by
  obtain ⟨offset, hlease, rfl⟩ := addressOf_call_eq_some hcall
  obtain ⟨taken, htaken, rfl⟩ := addressOf_call_eq_some hother
  rw [ipOffset_allocateVmIp, ipOffset_allocateVmIp]
  intro hsame
  subst hsame
  have hapart := List.pairwise_iff_getElem.mp hkept.hold.apart
  obtain ⟨hindex, hget⟩ := List.getElem?_eq_some_iff.mp hlease
  obtain ⟨hindex', hget'⟩ := List.getElem?_eq_some_iff.mp htaken
  rcases Nat.lt_or_gt_of_ne hne with hlt | hlt
  · have hpair := hapart index other hindex hindex' hlt
    rw [hget, hget'] at hpair
    exact hpair offset rfl rfl
  · have hpair := hapart other index hindex' hindex hlt
    rw [hget, hget'] at hpair
    exact hpair offset rfl rfl

theorem addressesDistinct_of_kept
    {system : System cfg}
    (hkept : system.Kept (leases cfg) (offsetOwners cfg)) :
    AddressesDistinct system := by
  intro owner other ip otherIp hne howner hother
  apply distinct_of_ipOffset_ne
  cases owner with
  | machine id =>
      cases other with
      | machine id' =>
          obtain ⟨handle, hlookup, rfl⟩ := addressOf_machine_eq_some howner
          obtain ⟨handle', hlookup', rfl⟩ :=
            addressOf_machine_eq_some hother
          intro hsame
          have hid := hkept.hold.globally.distinct id id' handle handle'
            hlookup hlookup' hsame
          exact hne (congrArg Owner.machine hid)
      | call index => exact machine_ne_call hkept howner hother
  | call index =>
      cases other with
      | machine id => exact (machine_ne_call hkept hother howner).symm
      | call index' =>
          apply call_ne_call hkept _ howner hother
          intro hsame
          exact hne (congrArg Owner.call hsame)

/-! ## After a recovery -/

/-- Every address in the directory was made from the gateway. -/
def WrittenUnder (gatewayIp : Ipv4Addr)
    (stateDir : AList fun _ : String => PersistedVm) : Prop :=
  ∀ name persisted, stateDir.lookup name = some persisted →
    ∃ offset, persisted.ip = allocateVmIp gatewayIp offset

/-- The loaded files of different machines have different addresses. -/
def LoadedApart (calls : RestartCalls)
    (stateDir : AList fun _ : String => PersistedVm) : Prop :=
  ∀ first ∈ loadedVms calls stateDir, ∀ second ∈ loadedVms calls stateDir,
    first.config.vmId ≠ second.config.vmId → first.ip ≠ second.ip

theorem ipOffset_ne_of_loadedApart
    {calls : RestartCalls} {stateDir : AList fun _ : String => PersistedVm}
    {gatewayIp : Ipv4Addr} (hwritten : WrittenUnder gatewayIp stateDir)
    (hapart : LoadedApart calls stateDir) {first second : PersistedVm}
    (hfirst : first ∈ loadedVms calls stateDir)
    (hsecond : second ∈ loadedVms calls stateDir)
    (hsame : ipOffset gatewayIp first.ip = ipOffset gatewayIp second.ip) :
    first.config.vmId = second.config.vmId := by
  by_contra hne
  apply hapart first hfirst second hsecond hne
  obtain ⟨name, hfile⟩ := exists_file_of_mem_loadedVms hfirst
  obtain ⟨name', hfile'⟩ := exists_file_of_mem_loadedVms hsecond
  obtain ⟨offset, hip⟩ := hwritten name first hfile
  obtain ⟨offset', hip'⟩ := hwritten name' second hfile'
  rw [hip, hip', ipOffset_allocateVmIp, ipOffset_allocateVmIp] at hsame
  rw [hip, hip', hsame]

theorem recovered_kept
    {node : Node cfg} {calls : RestartCalls}
    (hnamed : FilesNamed node.stateDir)
    (hwritten : WrittenUnder cfg.gatewayIp node.stateDir)
    (hapart : LoadedApart calls node.stateDir)
    (units : String → UnitState) :
    (idle (node.restart calls) units).Kept (leases cfg)
      (offsetOwners cfg) := by
  apply Pool.Kept.empty
  · constructor
    · intro id handle hlookup
      obtain ⟨persisted, hloaded, _, hhandle⟩ :=
        (Node.restart_vms_lookup_iff hnamed calls).mp hlookup
      rw [← hhandle]
      exact (Node.mem_restart_usedIpOffsets node calls _).mpr
        ⟨persisted, hloaded, rfl⟩
    · intro id other handle otherHandle hlookup hother hsame
      obtain ⟨first, hfirst, hid, hhandle⟩ :=
        (Node.restart_vms_lookup_iff hnamed calls).mp hlookup
      obtain ⟨second, hsecond, hid', hhandle'⟩ :=
        (Node.restart_vms_lookup_iff hnamed calls).mp hother
      rw [← hhandle, ← hhandle'] at hsame
      rw [← hid, ← hid']
      exact ipOffset_ne_of_loadedApart hwritten hapart hfirst hsecond hsame
  · exact fun _ hneeds => hneeds

/-- After the recovery of a directory written under the same gateway, all
runs of concurrent calls keep the addresses of different machines different
if and only if the files that the recovery loads have different addresses. -/
theorem addresses_distinct_iff
    (cfg : NodeConfig) (node : Node cfg) (calls : RestartCalls)
    (units : String → UnitState) (hnamed : FilesNamed node.stateDir)
    (hwritten : WrittenUnder cfg.gatewayIp node.stateDir) :
    (∀ events : List Event, (∀ event ∈ events, event.isCrash = false) →
        AddressesDistinct
          (run step (idle (node.restart calls) units) events)) ↔
      LoadedApart calls node.stateDir := by
  constructor
  · intro hdistinct first hfirst second hsecond hne
    have hstart := hdistinct [] (by simp)
    have haddress : ∀ persisted ∈ loadedVms calls node.stateDir,
        addressOf (idle (node.restart calls) units)
          (.machine persisted.config.vmId) = some persisted.ip := by
      intro persisted hloaded
      have hlookup := (Node.restart_vms_lookup_iff hnamed calls).mpr
        ⟨persisted, hloaded, rfl, rfl⟩
      exact Option.map_eq_some_iff.mpr ⟨_, hlookup, rfl⟩
    have howners : Owner.machine first.config.vmId ≠
        .machine second.config.vmId := by
      intro hsame
      exact hne (Owner.machine.inj hsame)
    exact (hstart _ _ _ _ howners (haddress first hfirst)
      (haddress second hsecond)).1
  · intro hapart events halive
    apply addressesDistinct_of_kept
    exact run_keeps_offsetOwners
      (recovered_kept hnamed hwritten hapart units) halive

/-- Two machines were created one after the other. -/
def twoFilesNode : Node smallHost :=
  (run step (idle smallNode noUnits)
    (.call (.createVm (smallConfig "vm-a" .none) none none) ::
        advances 0 14 ++
      .call (.createVm (smallConfig "vm-b" .none) none none) ::
        advances 1 14)).shared.node

/-- A third machine is created after the recovery of the two. -/
theorem addresses_distinct_third_machine :
    AddressesDistinct (run step
      (idle (twoFilesNode.restart restartSucceeds) noUnits)
      (.call (.createVm (smallConfig "vm-c" .none) none none) ::
        advances 0 14)) := by
  have hentries : ∀ entry ∈ twoFilesNode.stateDir.entries,
      entry.1 = stateFile entry.2.config.vmId ∧
        entry.2.ip = allocateVmIp smallHost.gatewayIp
          (ipOffset smallHost.gatewayIp entry.2.ip) := by
    decide +kernel
  have hnamed : FilesNamed twoFilesNode.stateDir := by
    intro name persisted hlookup
    exact (hentries _ (AList.mem_lookup_iff.mp hlookup)).1
  have hwritten : WrittenUnder smallHost.gatewayIp
      twoFilesNode.stateDir := by
    intro name persisted hlookup
    exact ⟨_, (hentries _ (AList.mem_lookup_iff.mp hlookup)).2⟩
  have hapart : LoadedApart restartSucceeds twoFilesNode.stateDir := by
    unfold LoadedApart
    decide +kernel
  apply (addresses_distinct_iff smallHost twoFilesNode restartSucceeds
    noUnits hnamed hwritten).mpr hapart
  intro event hevent
  rcases List.mem_cons.mp hevent with hcall | hadvance
  · rw [hcall]
    rfl
  · rw [List.eq_of_mem_replicate hadvance]
    rfl

/-- A machine is created and deleted, its state file stays, and the next
machine gets the same offset. -/
def leftoverFileRun : List Event :=
  .call (.createVm (smallConfig "vm-a" .none) none none) ::
    advances 0 14 ++
  .call (.deleteVm "vm-a") :: advances 1 10 ++
  .advance 1 { succeeds with done := false } :: advances 1 1 ++
  .call (.createVm (smallConfig "vm-b" .none) none none) ::
    advances 2 14

def leftoverFileNode : Node smallHost :=
  (run step (idle smallNode noUnits) leftoverFileRun).shared.node

/-- The directory that the run leaves gives two machines one address. -/
theorem addresses_shared_after_failed_removal :
    ¬ ∀ events : List Event, (∀ event ∈ events, event.isCrash = false) →
      AddressesDistinct (run step
        (idle (leftoverFileNode.restart restartSucceeds) noUnits)
        events) := by
  intro hdistinct
  have hfirst : addressOf
      (idle (leftoverFileNode.restart restartSucceeds) noUnits)
      (.machine "vm-a") = some 0x0A006402 := by
    decide +kernel
  have hsecond : addressOf
      (idle (leftoverFileNode.restart restartSucceeds) noUnits)
      (.machine "vm-b") = some 0x0A006402 := by
    decide +kernel
  exact (hdistinct [] (by simp) _ _ _ _ (by decide) hfirst hsecond).1 rfl

end AlephCvm.Vm.Concurrent

import AlephCvm.DuplicateCreation
import AlephCvm.PersistedForwards

/-!
# The interface of a machine as a lease

The kernel refuses to create an interface that exists, and every machine has
its own.  A creation that has created the interface of its machine is the
only one that can go on to insert the machine, and a deletion keeps the
interface until it is done with the firewall.  So the interface is held by the
machine in the table, by one creation or by one deletion, and a machine is
never inserted over another one.
-/

namespace AlephCvm.Vm.Concurrent

open ResultContext StepRuns AtomicPrograms AlephCvm.Tee AlephCvm.Numa
open AlephCvm.Net AlephCvm.Nft AlephCvm.Qemu

/-! ## Creations that are followed through the network setup -/

section Network

variable {Γ : Type}

/-- The resources that a creation uses besides the interface, the firewall
and the machine table. -/
def quietResources : List Resource :=
  [.offsets, .ranges, .reservations, .neighbours, .images, .numa, .units,
    .clock, .files]

/-- How a protocol follows a creation: one ghost before the interface, one
while it is held, and one after it was dropped. -/
structure NetworkSteps (cfg : NodeConfig) (id : String)
    (protocol : AtomicPrograms.Protocol Call Action Response Reply Γ)
    (before held dropped : Γ) : Prop where
  quiet : ∀ ghost ∈ [before, held, dropped], protocol.Neutral
    (fun action => quietResources.contains action.resource = true) ghost
  check : protocol.allowed before (.containsVm id) ∧ ∀ present,
    protocol.next before (.containsVm id) present = before
  create : protocol.allowed before (.createTap (tapName id))
  refused : ∀ message, protocol.next before (.createTap (tapName id))
    (.error message) = before
  created : protocol.next before (.createTap (tapName id)) (.ok ()) = held
  address : ∀ net, protocol.allowed held
    (.addTapAddress (tapName id) net) ∧ ∀ response,
      protocol.next held (.addTapAddress (tapName id) net) response = held
  delete : protocol.allowed held (.deleteTap (tapName id))
  deleted : protocol.next held (.deleteTap (tapName id)) () = dropped
  setup : (setupVm cfg id).Follows protocol
    (fun reached _ => reached = held) held
  teardown : (teardownVm cfg id).Follows protocol
    (fun reached _ => reached = held) held

variable {cfg : NodeConfig} {id : String}
  {protocol : AtomicPrograms.Protocol Call Action Response Reply Γ}
  {before held dropped : Γ}

theorem NetworkSteps.skip
    (hsteps : NetworkSteps cfg id protocol before held dropped)
    {α β : Type} {resources : List Resource} {R : α → Prop}
    {program : VmProgram α} {next : α → VmProgram β} {ghost : Γ}
    {post : Γ → β → Prop} (huses : Uses resources R program)
    (hresources : resources ⊆ quietResources)
    (hghost : ghost ∈ [before, held, dropped])
    (hnext : ∀ value, R value → (next value).Follows protocol post ghost) :
    (program >>= next).Follows protocol post ghost := by
  apply Program.follows_bind.mpr
  apply Program.Follows.of_within huses _ hnext
  intro action hmem
  apply hsteps.quiet ghost hghost action
  rw [List.contains_iff_mem] at hmem ⊢
  exact hresources hmem

theorem NetworkSteps.skipAction
    (hsteps : NetworkSteps cfg id protocol before held dropped)
    {β : Type} {action : Action} {next : Response action → VmProgram β}
    {ghost : Γ} {post : Γ → β → Prop}
    (hquiet : quietResources.contains action.resource = true)
    (hghost : ghost ∈ [before, held, dropped])
    (hnext : ∀ response, (next response).Follows protocol post ghost) :
    (perform action >>= next).Follows protocol post ghost := by
  have huses : Uses [action.resource] anything (perform action) :=
    uses_perform (List.contains_iff_mem.mpr List.mem_cons_self)
  refine hsteps.skip huses ?_ hghost fun response _ => hnext response
  intro resource hmem
  rw [List.mem_singleton.mp hmem]
  exact List.contains_iff_mem.mp hquiet

theorem NetworkSteps.undoTap
    (hsteps : NetworkSteps cfg id protocol before held dropped)
    (hasIpv6 : Bool) :
    (undoTap cfg id hasIpv6).Follows protocol
      (fun reached _ => reached = dropped) held := by
  unfold Concurrent.undoTap
  refine Program.follows_action_bind.mpr ⟨hsteps.delete, fun _ _ => ?_⟩
  rw [hsteps.deleted]
  apply Program.Follows.of_within (cleanupReservations_uses cfg id hasIpv6)
  · intro action hmem
    apply hsteps.quiet dropped (by simp) action
    rw [List.contains_iff_mem] at hmem ⊢
    revert hmem
    generalize action.resource = resource
    revert resource
    decide
  · exact fun _ _ => rfl

theorem NetworkSteps.setUpNetwork
    (hsteps : NetworkSteps cfg id protocol before held dropped)
    (vmIpv6 : Option Ipv6Net) :
    (setUpNetwork cfg id vmIpv6).Follows protocol
      (fun reached result => (result = .ok () ∧ reached = held) ∨
        (∃ failure, result = .error failure) ∧
          reached ∈ [before, held, dropped]) before := by
  have hundo : ∀ message : String,
      (do Concurrent.undoTap cfg id vmIpv6.isSome
          return .error (.error message) :
        VmProgram (Except Failure Unit)).Follows protocol
        (fun reached result => (result = .ok () ∧ reached = held) ∨
          (∃ failure, result = .error failure) ∧
            reached ∈ [before, held, dropped]) held := by
    intro message
    refine Program.follows_bind.mpr ((hsteps.undoTap _).mono ?_)
    intro reached _ hreached
    exact .inr ⟨⟨_, rfl⟩, by simp [hreached]⟩
  unfold Concurrent.setUpNetwork
  refine Program.follows_action_bind.mpr ⟨hsteps.create, fun made _ => ?_⟩
  cases made with
  | error message =>
      rw [hsteps.refused]
      refine hsteps.skip (cleanupReservations_uses cfg id _) (by decide)
        (by simp) fun _ _ => ?_
      exact .inr ⟨⟨_, rfl⟩, by simp⟩
  | ok done =>
      rw [hsteps.created]
      refine Program.follows_bind.mpr
        ((addTapAddress_follows hsteps.address vmIpv6).mono ?_)
      intro reached added hreached
      subst hreached
      cases added with
      | error message => exact hundo message
      | ok done =>
          refine Program.follows_bind.mpr (hsteps.setup.mono ?_)
          intro reached result hreached
          subst hreached
          cases result with
          | error message => exact hundo message
          | ok done => exact .inl ⟨rfl, rfl⟩

variable {post : Γ → Except Failure VmInfo → Prop}

theorem NetworkSteps.launchVm
    (hsteps : NetworkSteps cfg id protocol before held dropped)
    (hfailed : ∀ ghost ∈ [before, held, dropped], ∀ failure,
      post ghost (.error failure))
    (hinsert : ∀ handle now, handle.tapName = tapName id →
      protocol.allowed held (.insertVm id handle) ∧
        post (protocol.next held (.insertVm id handle) ())
          (.ok (VmInfo.fromHandle now handle)))
    {launch : Launch} (hlaunch : launch.config.vmId = id)
    (vmIp : Ipv4Addr) (macAddr : String) (vmIpv6 : Option Ipv6Net) :
    (launchVm cfg launch vmIp macAddr vmIpv6).Follows protocol post
      held := by
  subst hlaunch
  unfold Concurrent.launchVm
  refine hsteps.skipAction rfl (by simp) fun started => ?_
  cases started with
  | error message =>
      apply Program.follows_bind.mpr
      unfold undoLaunch
      refine hsteps.skipAction rfl (by simp) fun _ => ?_
      have hrange : Uses [.neighbours] anything
          (onlyIf (vmIpv6.isSome && cfg.hasNdpProxy)
            (perform (.deleteNdpRange (tapName launch.config.vmId)))) :=
        onlyIf_uses _ (uses_perform rfl)
      refine hsteps.skip hrange (by decide) (by simp) fun _ _ => ?_
      refine Program.follows_bind.mpr (hsteps.teardown.mono ?_)
      intro reached _ hreached
      subst hreached
      apply (hsteps.undoTap _).mono
      intro reached _ hreached
      subst hreached
      exact hfailed _ (by simp) _
  | ok done =>
      refine hsteps.skipAction rfl (by simp) fun now => ?_
      refine hsteps.skip (saveVm_uses _ _) (by decide) (by simp)
        fun _ _ => ?_
      refine hsteps.skipAction rfl (by simp) fun current => ?_
      have hinserted := hinsert
        (createdHandle cfg launch vmIp vmIpv6 now) current rfl
      exact Program.follows_action_bind.mpr
        ⟨hinserted.1, fun _ _ => hinserted.2⟩

/-- It is enough to say what a protocol does with the interface, the firewall
and the machine table. -/
theorem NetworkSteps.createVm
    {config : VmConfig} (hid : config.vmId = id)
    (hsteps : NetworkSteps cfg id protocol before held dropped)
    (hfailed : ∀ ghost ∈ [before, held, dropped], ∀ failure,
      post ghost (.error failure))
    (hinsert : ∀ handle now, handle.tapName = tapName id →
      protocol.allowed held (.insertVm id handle) ∧
        post (protocol.next held (.insertVm id handle) ())
          (.ok (VmInfo.fromHandle now handle)))
    (requestedIpv6 : Option Ipv6Net) (numaHint : Option UInt32) :
    (createVm cfg config requestedIpv6 numaHint).Follows protocol post
      before := by
  subst hid
  unfold Concurrent.createVm
  refine Program.follows_action_bind.mpr
    ⟨hsteps.check.1, fun present _ => ?_⟩
  rw [hsteps.check.2]
  cases present with
  | true => exact hfailed _ (by simp) _
  | false =>
      refine hsteps.skipAction rfl (by simp) fun taken => ?_
      cases taken with
      | none => exact hfailed _ (by simp) _
      | some offset =>
          refine hsteps.skipAction rfl (by simp) fun allocated => ?_
          cases allocated with
          | error failure => exact hfailed _ (by simp) _
          | ok vmIpv6 =>
              refine hsteps.skip (writeReservations_uses cfg _ _ _ vmIpv6)
                (by decide) (by simp) fun written _ => ?_
              cases written with
              | error failure => exact hfailed _ (by simp) _
              | ok done =>
                  refine Program.follows_bind.mpr
                    ((hsteps.setUpNetwork vmIpv6).mono ?_)
                  intro reached ready hready
                  rcases hready with ⟨hok, hreached⟩ |
                    ⟨⟨failure, herror⟩, hmem⟩
                  · subst hok hreached
                    refine hsteps.skip (addNdpRange_uses cfg _ vmIpv6)
                      (by decide) (by simp) fun _ _ => ?_
                    refine hsteps.skip
                      (prepareLaunch_uses cfg config numaHint _)
                      (by decide) (by simp) fun prepared hprepared => ?_
                    cases prepared with
                    | error failure => exact hfailed _ (by simp) _
                    | ok launch =>
                        exact hsteps.launchVm hfailed hinsert
                          (hprepared launch rfl) _ _ vmIpv6
                  · subst herror
                    exact hfailed _ hmem _

end Network

/-! ## Leases -/

/-- The ghost is the interface that the call holds.  Interfaces are deleted
by the call that holds them, and a machine is inserted by the creation that
holds its interface. -/
def tapLeases : AtomicPrograms.Protocol Call Action Response Reply
    (Option String) where
  start := fun _ => none
  next := fun held action response =>
    match action, response with
    | .createTap tap, .ok () => some tap
    | .deleteTap _, _ => none
    | .insertVm _ _, _ => none
    | .removeVm _, some handle => some handle.tapName
    | _, _ => held
  allowed := fun held action =>
    match action with
    | .createTap _ => held = none
    | .deleteTap tap => held = some tap
    | .insertVm id handle =>
        held = some (tapName id) ∧ handle.tapName = tapName id
    | .removeVm _ => held = none
    | _ => True
  admits := fun _ _ => True
  returns := fun _ _ => True

theorem tapLeases_neutral (held : Option String) :
    tapLeases.Neutral
      (fun action => [Resource.taps, .machines].contains
        action.resource = false) held := by
  intro action hother
  cases action with
  | createTap tap => cases hother
  | addTapAddress tap net => cases hother
  | deleteTap tap => cases hother
  | insertVm id handle => cases hother
  | removeVm id => cases hother
  | unlockVms => cases hother
  | _ => exact ⟨trivial, fun _ _ => rfl⟩

theorem tapLeases_networkSteps (cfg : NodeConfig) (id : String) :
    NetworkSteps cfg id tapLeases none (some (tapName id)) none where
  quiet := by
    intro held _ action hquiet
    apply tapLeases_neutral held action
    revert hquiet
    generalize action.resource = resource
    cases resource <;> decide
  check := ⟨trivial, fun _ => rfl⟩
  create := rfl
  refused := fun _ => rfl
  created := rfl
  address := fun _ => ⟨trivial, fun _ => rfl⟩
  delete := rfl
  deleted := rfl
  setup := (nftOperation_uses _ _).follows (tapLeases_neutral _) rfl
    fun _ _ => rfl
  teardown := (teardownVm_uses cfg id).follows (tapLeases_neutral _) rfl
    fun _ _ => rfl

theorem deleteVm_tapLeases (cfg : NodeConfig) (id : String) :
    (deleteVm cfg id).Follows tapLeases (fun _ _ => True) none := by
  unfold deleteVm
  refine Program.follows_action_bind.mpr ⟨rfl, fun found _ => ?_⟩
  cases found with
  | none => trivial
  | some handle =>
      have hneutral := tapLeases_neutral (some handle.tapName)
      refine Program.follows_bind.mpr ?_
      unfold deleteHandle
      refine Uses.skip (stopProcess_uses _) hneutral rfl fun _ _ => ?_
      refine Uses.skip (releaseNuma_uses _) hneutral rfl fun _ _ => ?_
      refine Program.follows_action_bind.mpr
        ⟨trivial, fun removed _ => ?_⟩
      refine Uses.skip (removeForwardRules_uses cfg 0 removed) hneutral rfl
        fun _ _ => ?_
      refine Uses.skip (dropIpv6_uses cfg id handle) hneutral rfl
        fun _ _ => ?_
      refine Uses.skip (teardownVm_uses cfg id) hneutral rfl fun _ _ => ?_
      refine Program.follows_action_bind.mpr ⟨rfl, fun _ _ => ?_⟩
      refine Uses.skip (removeReservations_uses cfg _ _)
        (tapLeases_neutral none) rfl fun _ _ => ?_
      refine Program.follows_action_bind.mpr ⟨trivial, fun _ _ => ?_⟩
      refine Program.follows_action_bind.mpr ⟨trivial, fun _ _ => ?_⟩
      exact ⟨trivial, fun _ _ => trivial⟩

theorem program_tapLeases (cfg : NodeConfig) (call : Call) :
    (program cfg call).Follows tapLeases tapLeases.returns none := by
  cases call with
  | createVm config requestedIpv6 numaHint =>
      refine Program.follows_bind.mpr
        ((tapLeases_networkSteps cfg config.vmId).createVm rfl ?_ ?_
          requestedIpv6 numaHint)
      · exact fun _ _ _ => trivial
      · exact fun handle _ htap => ⟨⟨rfl, htap⟩, trivial⟩
  | deleteVm id =>
      refine Program.follows_bind.mpr ((deleteVm_tapLeases cfg id).mono ?_)
      exact fun _ _ _ => trivial
  | addPortForward vmId hostPort vmPort protocol =>
      exact Uses.skip
        (addPortForward_uses cfg vmId hostPort vmPort protocol)
        (tapLeases_neutral none) rfl fun _ _ => trivial
  | removePortForward hostPort protocol =>
      exact Uses.skip (removePortForward_uses cfg hostPort protocol)
        (tapLeases_neutral none) rfl fun _ _ => trivial

/-! ## One holder for every interface -/

variable {cfg : NodeConfig}

/-- Every machine of the table has its interface. -/
def TapsPresent (node : Node cfg) : Prop :=
  ∀ id handle, node.vms.lookup id = some handle →
    handle.tapName = tapName id ∧ tapName id ∈ node.taps

theorem TapsPresent.mem
    {node : Node cfg} (hpresent : TapsPresent node) {id : String}
    (hmem : id ∈ node.vms) : tapName id ∈ node.taps := by
  obtain ⟨handle, hlookup⟩ := Option.isSome_iff_exists.mp
    (AList.lookup_isSome.mpr hmem)
  exact (hpresent id handle hlookup).2

def leaseOwners (cfg : NodeConfig) :
    Assertions (Shared cfg) (Option String) Unit where
  globally := fun shared => TapsPresent shared.node
  locally := fun shared held => ∀ tap, held = some tap →
    tap ∈ shared.node.taps ∧
      ∀ id ∈ shared.node.vms, tapName id ≠ tap
  apart := fun held other => ∀ tap, held = some tap → other ≠ some tap
  needs := fun _ _ => False
  holds := fun _ _ _ => False
  apart_symm := by
    intro held other hapart tap hother hheld
    exact hapart tap hheld hother

theorem locally_none (shared : Shared cfg) :
    (leaseOwners cfg).locally shared none := by
  intro tap htap
  cases htap

theorem apart_none (other : Option String) :
    (leaseOwners cfg).apart none other := by
  intro tap htap
  cases htap

section Keeps

variable {outcome : Outcome} {shared reached : Shared cfg}
  {held : Option String}

theorem keeps_leaseOwners_of_same
    (hvms : reached.node.vms = shared.node.vms)
    (htaps : reached.node.taps = shared.node.taps)
    (hpresent : TapsPresent shared.node)
    (hlocally : (leaseOwners cfg).locally shared held) :
    (leaseOwners cfg).Keeps (fun _ => True) shared held reached held := by
  refine .frame ?_ ?_ (fun _ hneeds => hneeds.elim)
    (fun _ _ hholds => hholds.elim) hlocally
  · simp only [leaseOwners, TapsPresent, hvms, htaps]
    exact hpresent
  · intro other hother
    simp only [leaseOwners, hvms, htaps]
    exact hother

theorem keeps_createTap
    {tap : String} {response : Except String Unit}
    (hpresent : TapsPresent shared.node)
    (hlocally : (leaseOwners cfg).locally shared held)
    (hexec : exec outcome (.createTap tap) shared =
      some (response, reached)) :
    (leaseOwners cfg).Keeps (fun _ => True) shared held reached
      (tapLeases.next held (.createTap tap) response) := by
  have hvms := (exec_sameExcept hexec).vms nofun
  obtain ⟨hgrows, hcreated⟩ := exec_createTap hexec
  have hglobally : TapsPresent reached.node := by
    intro id handle hlookup
    rw [hvms] at hlookup
    obtain ⟨hname, hmem⟩ := hpresent id handle hlookup
    exact ⟨hname, hgrows _ hmem⟩
  have hothers : ∀ other, (leaseOwners cfg).locally shared other →
      (leaseOwners cfg).locally reached other := by
    intro other hother found hfound
    obtain ⟨hmem, hfree⟩ := hother found hfound
    refine ⟨hgrows _ hmem, ?_⟩
    rw [hvms]
    exact hfree
  cases response with
  | error message =>
      exact .frame hglobally hothers (fun _ h => h) (fun _ _ h => h)
        hlocally
  | ok done =>
      obtain ⟨hfresh, hnew⟩ := hcreated rfl
      refine ⟨hglobally, ?_, ?_, fun _ hneeds => hneeds.elim,
        fun _ _ _ _ _ hneeds => hneeds.elim⟩
      · intro found hfound
        cases hfound
        refine ⟨hnew, ?_⟩
        intro id hmem heq
        rw [hvms] at hmem
        rw [← heq] at hfresh
        exact hfresh (hpresent.mem hmem)
      · intro other _ hother _
        refine ⟨hothers other hother, ?_⟩
        intro found hfound hsame
        cases hfound
        exact hfresh (hother tap hsame).1

theorem keeps_deleteTap
    {tap : String} (hpresent : TapsPresent shared.node)
    (hlocally : (leaseOwners cfg).locally shared (some tap))
    (hexec : exec outcome (.deleteTap tap) shared = some ((), reached)) :
    (leaseOwners cfg).Keeps (fun _ => True) shared (some tap) reached
      none := by
  have hvms := (exec_sameExcept hexec).vms nofun
  have hkept : ∀ other ∈ shared.node.taps, other ≠ tap →
      other ∈ reached.node.taps := by
    intro other hmem hother
    cases hexec
    simp only [Vm.deleteTap]
    split
    · exact Finset.mem_erase.mpr ⟨hother, hmem⟩
    · exact hmem
  have hfree := (hlocally tap rfl).2
  refine ⟨?_, locally_none _, ?_, fun _ hneeds => hneeds.elim,
    fun _ _ _ _ _ hneeds => hneeds.elim⟩
  · intro id handle hlookup
    rw [hvms] at hlookup
    obtain ⟨hname, hmem⟩ := hpresent id handle hlookup
    refine ⟨hname, hkept _ hmem (hfree id ?_)⟩
    rw [← AList.lookup_isSome, hlookup]
    rfl
  · intro other _ hother hapart
    refine ⟨?_, apart_none other⟩
    intro found hfound
    obtain ⟨hmem, hothers⟩ := hother found hfound
    rw [hvms]
    refine ⟨hkept found hmem ?_, hothers⟩
    intro heq
    rw [heq] at hfound
    exact hapart tap rfl hfound

theorem keeps_insertVm
    {id : String} {handle : VmHandle} (hname : handle.tapName = tapName id)
    (hpresent : TapsPresent shared.node)
    (hlocally : (leaseOwners cfg).locally shared (some (tapName id)))
    (hexec : exec outcome (.insertVm id handle) shared =
      some ((), reached)) :
    (leaseOwners cfg).Keeps (fun _ => True) shared (some (tapName id))
      reached none := by
  cases (unlessLocked_eq_some.mp hexec).2
  refine ⟨?_, locally_none _, ?_, fun _ hneeds => hneeds.elim,
    fun _ _ _ _ _ hneeds => hneeds.elim⟩
  · intro other found hlookup
    by_cases hother : other = id
    · subst hother
      rw [AList.lookup_insert, Option.some.injEq] at hlookup
      rw [← hlookup]
      exact ⟨hname, (hlocally _ rfl).1⟩
    · rw [AList.lookup_insert_ne hother] at hlookup
      exact hpresent other found hlookup
  · intro other _ hother hapart
    refine ⟨?_, apart_none other⟩
    intro tap htap
    obtain ⟨hmem, hfree⟩ := hother tap htap
    refine ⟨hmem, ?_⟩
    intro owner howner heq
    rcases (AList.mem_insert _).mp howner with hnew | hold
    · rw [← heq, hnew] at htap
      exact hapart _ rfl htap
    · exact hfree owner hold heq

theorem keeps_removeMachine
    {id : String} {handle : VmHandle} (hpresent : TapsPresent shared.node)
    (hexec : exec outcome (.removeVm id) shared =
      some (some handle, reached)) :
    (leaseOwners cfg).Keeps (fun _ => True) shared none reached
      (some handle.tapName) := by
  obtain ⟨hlookup, hview⟩ := exec_removeVm hexec
  have hvms : reached.node.vms = shared.node.vms.erase id :=
    congrArg SaveView.vms hview
  have htaps := (exec_sameExcept hexec).taps nofun
  obtain ⟨hname, hmem⟩ := hpresent id handle hlookup.symm
  have hknown : id ∈ shared.node.vms := by
    rw [← AList.lookup_isSome, ← hlookup]
    rfl
  refine ⟨?_, ?_, ?_, fun _ hneeds => hneeds.elim,
    fun _ _ _ _ _ hneeds => hneeds.elim⟩
  · intro other found hfound
    rw [hvms] at hfound
    have hother : other ≠ id := by
      intro heq
      rw [heq, AList.lookup_erase] at hfound
      cases hfound
    rw [AList.lookup_erase_ne hother] at hfound
    rw [htaps]
    exact hpresent other found hfound
  · intro tap htap
    cases htap
    rw [hname, htaps, hvms]
    refine ⟨hmem, ?_⟩
    intro other hother heq
    exact (AList.mem_erase.mp hother).1 (tapName_injective heq)
  · intro other _ hother _
    constructor
    · intro tap htap
      obtain ⟨hpresentTap, hfree⟩ := hother tap htap
      rw [htaps, hvms]
      refine ⟨hpresentTap, ?_⟩
      intro owner howner
      exact hfree owner (AList.mem_erase.mp howner).2
    · intro tap htap hsame
      cases htap
      exact (hother _ hsame).2 id hknown hname.symm

theorem exec_keeps_leaseOwners
    {action : Action} {response : Response action}
    (hpresent : TapsPresent shared.node)
    (hlocally : (leaseOwners cfg).locally shared held)
    (hallowed : tapLeases.allowed held action)
    (hexec : exec outcome action shared = some (response, reached)) :
    (leaseOwners cfg).Keeps (fun _ => True) shared held reached
      (tapLeases.next held action response) := by
  have hsame := exec_sameExcept hexec
  cases action with
  | createTap tap => exact keeps_createTap hpresent hlocally hexec
  | deleteTap tap =>
      have hheld : held = some tap := hallowed
      subst hheld
      exact keeps_deleteTap hpresent hlocally hexec
  | insertVm id handle =>
      obtain ⟨hheld, hname⟩ := hallowed
      subst hheld
      exact keeps_insertVm hname hpresent hlocally hexec
  | removeVm id =>
      have hheld : held = none := hallowed
      subst hheld
      cases response with
      | none =>
          have hview := (exec_removeVm hexec).2
          exact keeps_leaseOwners_of_same (congrArg SaveView.vms hview)
            (hsame.taps nofun) hpresent hlocally
      | some handle => exact keeps_removeMachine hpresent hexec
  | addTapAddress tap net =>
      cases hexec
      exact keeps_leaseOwners_of_same rfl rfl hpresent hlocally
  | unlockVms =>
      cases hexec
      exact keeps_leaseOwners_of_same rfl rfl hpresent hlocally
  | _ =>
      exact keeps_leaseOwners_of_same (hsame.vms nofun)
        (hsame.taps nofun) hpresent hlocally

end Keeps

/-! ## Runs -/

theorem step_keeps_leaseOwners
    {system : System cfg} {event : Event}
    (hkept : system.Kept tapLeases (leaseOwners cfg))
    (halive : event.isCrash = false) :
    (step system event).Kept tapLeases (leaseOwners cfg) := by
  cases event with
  | call call =>
      apply hkept.call (program_tapLeases cfg call)
      · exact locally_none _
      · intro other
        exact (leaseOwners cfg).apart_symm (apart_none other)
  | advance index outcome =>
      have hmeets : system.Meets exec tapLeases
          (fun _ _ _ _ _ => True) (fun _ _ _ _ _ _ => True) index outcome :=
        fun _ _ => ⟨trivial, fun _ _ => trivial⟩
      apply Pool.Kept.advance _ _ hkept hmeets
      · exact fun _ _ _ => trivial
      · intro shared outcome held action response reached hpresent hlocally
          hallowed hexec _
        exact exec_keeps_leaseOwners hpresent hlocally hallowed hexec
  | unit id state =>
      refine ⟨hkept.follows, ?_⟩
      rw [step, Shared.evolveUnit_eq]
      exact hkept.hold.environment hkept.hold.globally (fun _ h => h)
        (fun _ h => h) (fun _ _ h => h)
  | crash calls => cases halive

/-- A machine is inserted where there was none. -/
def insertsFresh (shared : Shared cfg) (action : Action) : Prop :=
  ∀ id handle, action = .insertVm id handle → id ∉ shared.node.vms

theorem meets_insertsFresh {Γ : Type}
    {protocol : AtomicPrograms.Protocol Call Action Response Reply Γ}
    {system : System cfg}
    (hkept : system.Kept tapLeases (leaseOwners cfg)) (index : ℕ)
    (outcome : Outcome) :
    system.Meets exec protocol
      (fun shared _ _ action _ => insertsFresh shared action)
      (fun _ _ _ _ _ _ => True) index outcome := by
  apply hkept.meets
  intro shared held action _ hlocally hallowed id handle haction hmem
  subst haction
  exact (hlocally (tapName id) hallowed.1).2 id hmem rfl

end AlephCvm.Vm.Concurrent

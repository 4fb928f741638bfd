import AlephCvm.NftablesSetup
import AlephCvm.VmPrograms
import AlephCvm.VmRoundTrip

/-!
# Two creations of one machine

Everything that `create_vm` acquires is named after the machine, and the
check for a duplicate is far from the insertion.  Two creations of one
machine compete for the interface: the kernel gives it to one of them, and
only that one goes on to the firewall and the machine table.  The reservation
files and the IPv6 range come before the interface, and nothing keeps the
second call from writing over them and taking them away again.
-/

namespace AlephCvm.Vm.Concurrent

open ResultContext StepRuns AtomicPrograms AlephCvm.Tee AlephCvm.Numa
open AlephCvm.Net AlephCvm.Nft AlephCvm.Qemu

/-! ## The protocol -/

/-- What a creation has acquired: its IPv6 range, its reservation files, the
interface, the listing that its setup uses, the listing from which its chains
were set up, and the handle that it has inserted. -/
structure Creation where
  range : Option Ipv6Net
  hosts : String → Option String
  tap : Bool
  listing : Option Listing
  chains : Option Listing
  handle : Option VmHandle

def Creation.begun : Creation where
  range := none
  hosts := fun _ => none
  tap := false
  listing := none
  chains := none
  handle := none

def setHosts (hosts : String → Option String) (name : String)
    (content : Option String) : String → Option String :=
  fun other => if other = name then content else hosts other

/-- The listing, if the commands are those of a setup from it. -/
def Creation.setUpFrom (cfg : NodeConfig) (id : String)
    (creation : Creation) (commands : List NftCommand) : Option Listing :=
  creation.listing.filter fun listing =>
    match cfg.nftables.setupCommands listing id (tapName id) with
    | .ok derived => derived == commands
    | .error _ => false

def Creation.next (cfg : NodeConfig) (id : String) (creation : Creation)
    (action : Action) (response : Response action) : Creation :=
  match action, response with
  | .allocateIpv6 vmId _, .ok net =>
      if vmId = id then { creation with range := net } else creation
  | .releaseIpv6 _, _ => { creation with range := none }
  | .tryReleaseIpv6 _, _ => { creation with range := none }
  | .writeHosts name content, .ok () =>
      { creation with
        hosts := setHosts creation.hosts name (some content) }
  | .writeHosts name _, .error _ =>
      { creation with hosts := setHosts creation.hosts name none }
  | .removeHosts name, _ =>
      { creation with hosts := setHosts creation.hosts name none }
  | .createTap tap, .ok () =>
      if tap = tapName id then { creation with tap := true } else creation
  | .deleteTap _, _ =>
      { creation with tap := false, listing := none, chains := none }
  | .listRuleset _, .ok listing =>
      { creation with listing := some listing }
  | .runNft _ commands, .ok () =>
      { creation with
        listing := none
        chains := creation.setUpFrom cfg id commands }
  | .insertVm _ handle, _ => { creation with handle := some handle }
  | _, _ => creation

/-- The files and the range that the call holds are those of the machine. -/
structure Creation.Registered (cfg : NodeConfig) (id : String)
    (creation : Creation) (handle : VmHandle) : Prop where
  tapName : handle.tapName = tapName id
  range : creation.range = handle.ipv6
  dhcp : cfg.dhcpHostsdir.isSome = true →
    creation.hosts id =
      some (dhcpLine (macForVmIp handle.ip) handle.ip)
  dhcpv6 : cfg.dhcpHostsdir.isSome = true → ∀ net,
    handle.ipv6 = some net →
      creation.hosts (dhcpv6File id) =
        some (dhcpv6Line (macForVmIp handle.ip) net.addr)

theorem Creation.Registered.congr
    {cfg : NodeConfig} {id : String} {creation other : Creation}
    {handle : VmHandle} (hregistered : creation.Registered cfg id handle)
    (hrange : other.range = creation.range)
    (hhosts : other.hosts = creation.hosts) :
    other.Registered cfg id handle where
  tapName := hregistered.tapName
  range := by
    rw [hrange]
    exact hregistered.range
  dhcp := by
    rw [hhosts]
    exact hregistered.dhcp
  dhcpv6 := by
    rw [hhosts]
    exact hregistered.dhcpv6

/-- The firewall is used by the holder of the interface only, and a machine
is inserted after everything else. -/
def creations (cfg : NodeConfig) (id : String) :
    Protocol Call Action Response Reply Creation where
  start := fun _ => .begun
  next := Creation.next cfg id
  allowed := fun creation action =>
    match action with
    | .allocateIpv6 _ _ => creation.handle = none
    | .releaseIpv6 _ => creation.handle = none
    | .tryReleaseIpv6 _ => creation.handle = none
    | .writeHosts _ _ => creation.handle = none
    | .removeHosts _ => creation.handle = none
    | .createTap _ => creation.handle = none
    | .deleteTap _ => creation.tap = true ∧ creation.handle = none
    | .listRuleset _ => creation.tap = true
    | .runNft _ _ => creation.tap = true ∧ creation.handle = none
    | .insertVm vmId handle => vmId = id ∧ creation.tap = true ∧
        creation.chains.isSome = true ∧ creation.Registered cfg id handle
    | .removeVm _ => False
    | .unlockVms => False
    | _ => True
  admits := fun _ _ => True
  returns := fun creation reply => ∀ info, reply = .created (.ok info) →
    ∃ handle now, creation.handle = some handle ∧
      info = VmInfo.fromHandle now handle

theorem creations_neutral
    (cfg : NodeConfig) (id : String) (creation : Creation) :
    (creations cfg id).Neutral
      (fun action => [Resource.machines, .ranges, .reservations, .taps,
        .firewall].contains action.resource = false) creation := by
  intro action hother
  cases action with
  | allocateIpv6 vmId requested => cases hother
  | releaseIpv6 vmId => cases hother
  | tryReleaseIpv6 vmId => cases hother
  | writeHosts name content => cases hother
  | removeHosts name => cases hother
  | createTap tap => cases hother
  | addTapAddress tap net => cases hother
  | deleteTap tap => cases hother
  | listRuleset purpose => cases hother
  | runNft purpose commands => cases hother
  | insertVm vmId handle => cases hother
  | removeVm vmId => cases hother
  | unlockVms => cases hother
  | _ => exact ⟨trivial, fun _ _ => rfl⟩

variable (cfg : NodeConfig) (id : String)

/-! ## Undoing a creation -/

/-- Cleaning up never touches the machine table. -/
theorem cleanup_keeps
    (creation : Creation) (action : Action)
    (hhandle : creation.handle = none)
    (hresource : [Resource.reservations, .ranges].contains
      action.resource = true) :
    (creations cfg id).allowed creation action ∧
      ∀ response, (creations cfg id).admits action response →
        ((creations cfg id).next creation action response).handle =
          none := by
  cases action with
  | allocateIpv6 vmId requested =>
      refine ⟨hhandle, fun response _ => ?_⟩
      cases response with
      | error failure => exact hhandle
      | ok net =>
          simp only [creations, Creation.next]
          split
          · exact hhandle
          · exact hhandle
  | releaseIpv6 vmId => exact ⟨hhandle, fun _ _ => hhandle⟩
  | tryReleaseIpv6 vmId => exact ⟨hhandle, fun _ _ => hhandle⟩
  | writeHosts name content =>
      refine ⟨hhandle, fun response _ => ?_⟩
      cases response with
      | error message => exact hhandle
      | ok done => exact hhandle
  | removeHosts name => exact ⟨hhandle, fun _ _ => hhandle⟩
  | _ => cases hresource

theorem cleanupReservations_creations
    (vmId : String) (hasIpv6 : Bool) {creation : Creation}
    (hhandle : creation.handle = none) :
    (cleanupReservations cfg vmId hasIpv6).Follows (creations cfg id)
      (fun reached _ => reached.handle = none) creation := by
  have hkeeps := (cleanupReservations_uses cfg vmId hasIpv6).keeps
    (J := fun reached : Creation => reached.handle = none)
    (cleanup_keeps cfg id) hhandle
  exact hkeeps.mono fun _ _ hreached => hreached.1

theorem undoTap_creations
    (vmId : String) (hasIpv6 : Bool) {creation : Creation}
    (htap : creation.tap = true) (hhandle : creation.handle = none) :
    (undoTap cfg vmId hasIpv6).Follows (creations cfg id)
      (fun reached _ => reached.handle = none) creation := by
  unfold undoTap
  refine Program.follows_action_bind.mpr ⟨⟨htap, hhandle⟩, fun _ _ => ?_⟩
  apply cleanupReservations_creations
  exact hhandle

/-- The firewall is used while the interface is held. -/
theorem firewall_keeps
    (creation : Creation) (action : Action)
    (hheld : creation.tap = true ∧ creation.handle = none)
    (hresource : [Resource.firewall].contains action.resource = true) :
    (creations cfg id).allowed creation action ∧
      ∀ response, (creations cfg id).admits action response →
        ((creations cfg id).next creation action response).tap = true ∧
          ((creations cfg id).next creation action response).handle =
            none := by
  cases action with
  | listRuleset purpose =>
      refine ⟨hheld.1, fun response _ => ?_⟩
      cases response with
      | error message => exact hheld
      | ok listing => exact hheld
  | runNft purpose commands =>
      refine ⟨hheld, fun response _ => ?_⟩
      cases response with
      | error message => exact hheld
      | ok done => exact hheld
  | _ => cases hresource

theorem undoLaunch_creations
    (launch : Launch) (vmId : String) (vmIpv6 : Option Ipv6Net)
    {creation : Creation} (htap : creation.tap = true)
    (hhandle : creation.handle = none) :
    (undoLaunch cfg launch vmId vmIpv6).Follows (creations cfg id)
      (fun reached _ => reached.handle = none) creation := by
  unfold undoLaunch
  refine Program.follows_action_bind.mpr ⟨trivial, fun _ _ => ?_⟩
  have hrange : Uses [.neighbours] anything
      (onlyIf (vmIpv6.isSome && cfg.hasNdpProxy)
        (perform (.deleteNdpRange (tapName vmId)))) :=
    onlyIf_uses _ (uses_perform rfl)
  refine Uses.skip hrange (creations_neutral cfg id _) rfl fun _ _ => ?_
  have hteardown := (teardownVm_uses cfg vmId).keeps
    (J := fun reached : Creation =>
      reached.tap = true ∧ reached.handle = none)
    (firewall_keeps cfg id) ⟨htap, hhandle⟩
  refine Program.follows_bind.mpr (hteardown.mono ?_)
  intro reached _ hreached
  exact undoTap_creations cfg id vmId _ hreached.1.1 hreached.1.2

/-! ## Acquiring -/

/-- The reservation files of a machine, if the host has any. -/
structure ReservedFor (vmIp : Ipv4Addr) (vmIpv6 : Option Ipv6Net)
    (hosts : String → Option String) : Prop where
  dhcp : cfg.dhcpHostsdir.isSome = true →
    hosts id = some (dhcpLine (macForVmIp vmIp) vmIp)
  dhcpv6 : cfg.dhcpHostsdir.isSome = true → ∀ net, vmIpv6 = some net →
    hosts (dhcpv6File id) =
      some (dhcpv6Line (macForVmIp vmIp) net.addr)

theorem writeReservations_creations
    (vmIp : Ipv4Addr) (vmIpv6 : Option Ipv6Net) {creation : Creation}
    (hhandle : creation.handle = none) :
    (writeReservations cfg id (macForVmIp vmIp) vmIp vmIpv6).Follows
      (creations cfg id)
      (fun reached result => result = .ok () → ∃ hosts,
        reached = { creation with hosts := hosts } ∧
          ReservedFor cfg id vmIp vmIpv6 hosts) creation := by
  unfold writeReservations
  split
  · rename_i hnone
    intro _
    refine ⟨creation.hosts, rfl, ?_, ?_⟩
    · intro hsome
      rw [hnone] at hsome
      cases hsome
    · intro hsome
      rw [hnone] at hsome
      cases hsome
  · refine Program.follows_action_bind.mpr ⟨hhandle, fun written _ => ?_⟩
    cases written with
    | error message =>
        intro hok
        cases hok
    | ok done =>
        cases vmIpv6 with
        | none =>
            intro _
            refine ⟨_, rfl, ?_, nofun⟩
            intro _
            simp [setHosts]
        | some net =>
            refine Program.follows_action_bind.mpr
              ⟨hhandle, fun written _ => ?_⟩
            cases written with
            | error message =>
                refine Program.follows_action_bind.mpr
                  ⟨hhandle, fun _ _ => ?_⟩
                refine Program.follows_action_bind.mpr
                  ⟨hhandle, fun _ _ => ?_⟩
                intro hok
                cases hok
            | ok done =>
                intro _
                refine ⟨_, rfl, ?_, ?_⟩
                · intro _
                  simp [setHosts, creations, Creation.next,
                    (dhcpv6File_ne id).symm]
                · intro _ found hfound
                  cases hfound
                  simp [setHosts]

theorem setupVm_creations
    (creation : Creation) (htap : creation.tap = true)
    (hhandle : creation.handle = none) :
    (setupVm cfg id).Follows (creations cfg id)
      (fun reached result => reached.tap = true ∧ reached.handle = none ∧
        (result = .ok () → ∃ listing, reached =
          { creation with listing := none, chains := some listing }))
      creation := by
  unfold setupVm nftOperation
  refine Program.follows_action_bind.mpr ⟨htap, fun listed _ => ?_⟩
  cases listed with
  | error message => exact ⟨htap, hhandle, nofun⟩
  | ok listing =>
      simp only
      cases hcommands : cfg.nftables.setupCommands listing id
          (tapName id) with
      | error message => exact ⟨htap, hhandle, nofun⟩
      | ok batch =>
          refine ⟨⟨htap, hhandle⟩, fun response _ => ?_⟩
          cases response with
          | error message => exact ⟨htap, hhandle, nofun⟩
          | ok done =>
              refine ⟨htap, hhandle, fun _ => ⟨listing, ?_⟩⟩
              simp [creations, Creation.next, Creation.setUpFrom, hcommands]

theorem setUpNetwork_creations
    (vmIpv6 : Option Ipv6Net) {creation : Creation}
    (hhandle : creation.handle = none) :
    (setUpNetwork cfg id vmIpv6).Follows (creations cfg id)
      (fun reached result => result = .ok () → ∃ listing, reached =
        { creation with
          tap := true, listing := none, chains := some listing })
      creation := by
  unfold setUpNetwork
  refine Program.follows_action_bind.mpr ⟨hhandle, fun created _ => ?_⟩
  cases created with
  | error message =>
      refine Program.follows_bind.mpr
        ((cleanupReservations_creations cfg id id _ hhandle).mono ?_)
      intro reached _ _ hok
      cases hok
  | ok done =>
      have hnext : (creations cfg id).next creation
          (.createTap (tapName id)) (.ok ()) =
          { creation with tap := true } := by
        simp [creations, Creation.next]
      rw [hnext]
      have hundo : ∀ (held : Creation) (message : String),
          held.tap = true → held.handle = none →
          (do undoTap cfg id vmIpv6.isSome
              return .error (.error message) :
            VmProgram (Except Failure Unit)).Follows (creations cfg id)
            (fun reached result => result = .ok () → ∃ listing, reached =
              { creation with
                tap := true, listing := none, chains := some listing })
            held := by
        intro held message hheld hnone
        refine Program.follows_bind.mpr
          ((undoTap_creations cfg id id _ hheld hnone).mono ?_)
        intro reached _ _ hok
        cases hok
      have haddress : (addTapAddress id vmIpv6).Follows (creations cfg id)
          (fun reached _ => reached = { creation with tap := true })
          { creation with tap := true } :=
        addTapAddress_follows (fun _ => ⟨trivial, fun _ => rfl⟩) vmIpv6
      refine Program.follows_bind.mpr (haddress.mono ?_)
      intro reached added hreached
      subst hreached
      cases added with
      | error message => exact hundo _ message rfl hhandle
      | ok done =>
          have hsetup := setupVm_creations cfg id
            { creation with tap := true } rfl hhandle
          refine Program.follows_bind.mpr (hsetup.mono ?_)
          intro reached result hreached
          obtain ⟨htap, hnone, hok⟩ := hreached
          cases result with
          | error message => exact hundo _ message htap hnone
          | ok done => exact fun _ => hok rfl

theorem launchVm_creations
    {launch : Launch} (hlaunch : launch.config.vmId = id)
    (vmIp : Ipv4Addr) (macAddr : String) (vmIpv6 : Option Ipv6Net)
    {creation : Creation} (htap : creation.tap = true)
    (hchains : creation.chains.isSome = true)
    (hhandle : creation.handle = none)
    (hrange : creation.range = vmIpv6)
    (hreserved : ReservedFor cfg id vmIp vmIpv6 creation.hosts) :
    (launchVm cfg launch vmIp macAddr vmIpv6).Follows (creations cfg id)
      (fun reached result =>
        (creations cfg id).returns reached (.created result)) creation := by
  unfold launchVm
  refine Program.follows_action_bind.mpr ⟨trivial, fun started _ => ?_⟩
  cases started with
  | error message =>
      refine Program.follows_bind.mpr ((undoLaunch_creations cfg id launch _
        vmIpv6 htap hhandle).mono ?_)
      intro reached _ _ info hinfo
      cases hinfo
  | ok done =>
      refine Program.follows_action_bind.mpr ⟨trivial, fun now _ => ?_⟩
      refine Uses.skip (saveVm_uses _ _) (creations_neutral cfg id creation)
        rfl fun _ _ => ?_
      refine Program.follows_action_bind.mpr ⟨trivial, fun current _ => ?_⟩
      refine Program.follows_action_bind.mpr
        ⟨⟨hlaunch, htap, hchains, ?_⟩, ?_⟩
      · constructor
        · rw [createdHandle, hlaunch]
        · exact hrange
        · exact hreserved.dhcp
        · exact hreserved.dhcpv6
      · intro _ _ info hinfo
        cases hinfo
        exact ⟨_, current, rfl, rfl⟩

theorem createVm_creations
    {config : VmConfig} (hconfig : config.vmId = id)
    (requestedIpv6 : Option Ipv6Net) (numaHint : Option UInt32) :
    (createVm cfg config requestedIpv6 numaHint).Follows
      (creations cfg id)
      (fun reached result =>
        (creations cfg id).returns reached (.created result))
      .begun := by
  subst hconfig
  have hfailed : ∀ (reached : Creation) (failure : Failure),
      (creations cfg config.vmId).returns reached
        (.created (.error failure)) := by
    intro reached failure info hinfo
    cases hinfo
  unfold createVm
  refine Program.follows_action_bind.mpr ⟨trivial, fun present _ => ?_⟩
  cases present with
  | true => exact hfailed _ _
  | false =>
      refine Program.follows_action_bind.mpr ⟨trivial, fun taken _ => ?_⟩
      cases taken with
      | none => exact hfailed _ _
      | some offset =>
          refine Program.follows_action_bind.mpr
            ⟨rfl, fun allocated _ => ?_⟩
          cases allocated with
          | error failure => exact hfailed _ _
          | ok vmIpv6 =>
              have hnext : (creations cfg config.vmId).next .begun
                  (.allocateIpv6 config.vmId requestedIpv6) (.ok vmIpv6) =
                  { Creation.begun with range := vmIpv6 } := by
                simp [creations, Creation.next]
              have hbegun : (creations cfg config.vmId).next
                  ((creations cfg config.vmId).next .begun
                    (.containsVm config.vmId) false) .takeOffset
                  (some offset) = .begun := rfl
              rw [hbegun, hnext]
              refine Program.follows_bind.mpr
                ((writeReservations_creations cfg config.vmId _ vmIpv6
                  rfl).mono ?_)
              intro reached written hwritten
              cases written with
              | error failure => exact hfailed _ _
              | ok done =>
                  obtain ⟨hosts, hreached, hreserved⟩ := hwritten rfl
                  subst hreached
                  refine Program.follows_bind.mpr
                    ((setUpNetwork_creations cfg config.vmId vmIpv6
                      rfl).mono ?_)
                  intro reached ready hready
                  cases ready with
                  | error failure => exact hfailed _ _
                  | ok done =>
                      obtain ⟨listing, hreached⟩ := hready rfl
                      subst hreached
                      refine Uses.skip (addNdpRange_uses cfg _ vmIpv6)
                        (creations_neutral cfg _ _) rfl fun _ _ => ?_
                      refine Uses.skip
                        (prepareLaunch_uses cfg config numaHint _)
                        (creations_neutral cfg _ _) rfl
                        fun prepared hprepared => ?_
                      cases prepared with
                      | error failure => exact hfailed _ _
                      | ok launch =>
                          exact launchVm_creations cfg config.vmId
                            (hprepared launch rfl) _ _ vmIpv6 rfl rfl rfl
                            rfl hreserved

/-! ## The interface -/

variable {cfg}

/-- The interface of the machine has at most one holder. -/
def tapOwners (cfg : NodeConfig) (id : String) :
    Assertions (Shared cfg) Creation Unit where
  globally := fun _ => True
  locally := fun shared creation =>
    (creation.tap = true → tapName id ∈ shared.node.taps) ∧
      (creation.handle.isSome = true → creation.tap = true)
  apart := fun creation other =>
    ¬ (creation.tap = true ∧ other.tap = true)
  needs := fun _ _ => False
  holds := fun _ _ _ => False
  apart_symm := fun hnot hboth => hnot ⟨hboth.2, hboth.1⟩

/-- The actions that acquire or drop the interface or use it up. -/
def Action.movesTap : Action → Bool
  | .createTap _ => true
  | .deleteTap _ => true
  | .insertVm _ _ => true
  | _ => false

theorem next_of_not_movesTap
    (cfg : NodeConfig) (creation : Creation) {action : Action}
    (response : Response action) (hother : action.movesTap = false) :
    (creation.next cfg id action response).tap = creation.tap ∧
      (creation.next cfg id action response).handle =
        creation.handle := by
  cases action with
  | createTap tap => cases hother
  | deleteTap tap => cases hother
  | insertVm vmId handle => cases hother
  | allocateIpv6 vmId requested =>
      cases response with
      | error failure => exact ⟨rfl, rfl⟩
      | ok net =>
          simp only [Creation.next]
          split
          · exact ⟨rfl, rfl⟩
          · exact ⟨rfl, rfl⟩
  | writeHosts name content => cases response <;> exact ⟨rfl, rfl⟩
  | listRuleset purpose => cases response <;> exact ⟨rfl, rfl⟩
  | runNft purpose commands => cases response <;> exact ⟨rfl, rfl⟩
  | _ => exact ⟨rfl, rfl⟩

theorem exec_taps_of_not_movesTap
    {outcome : Outcome} {action : Action} {shared reached : Shared cfg}
    {response : Response action}
    (hexec : exec outcome action shared = some (response, reached))
    (hother : action.movesTap = false) :
    reached.node.taps = shared.node.taps := by
  by_cases hresource : action.resource = .taps
  · cases action with
    | createTap tap => cases hother
    | deleteTap tap => cases hother
    | addTapAddress tap net =>
        cases hexec
        rfl
    | _ => cases hresource
  · exact (exec_sameExcept hexec).taps hresource

/-- What a creation of an interface does to the set of interfaces. -/
theorem exec_createTap
    {outcome : Outcome} {shared reached : Shared cfg} {tap : String}
    {response : Except String Unit}
    (hexec : exec outcome (.createTap tap) shared =
      some (response, reached)) :
    (∀ other ∈ shared.node.taps, other ∈ reached.node.taps) ∧
      (response = .ok () → tap ∉ shared.node.taps ∧
        tap ∈ reached.node.taps) := by
  have hresult : shared.createTap outcome.tap tap = (response, reached) :=
    Option.some.inj hexec
  unfold Shared.createTap Vm.createTap at hresult
  split_ifs at hresult with hknown
  · cases hresult
    exact ⟨fun _ h => h, nofun⟩
  · have hgrows : ∀ other ∈ shared.node.taps,
        other ∈ insert tap shared.node.taps :=
      fun other hmem => Finset.mem_insert_of_mem hmem
    cases hadd : outcome.tap.add with
    | error message =>
        rw [hadd] at hresult
        cases hresult
        exact ⟨fun _ h => h, nofun⟩
    | ok added =>
        cases hup : outcome.tap.up with
        | error message =>
            rw [hadd, hup] at hresult
            cases hresult
            exact ⟨hgrows, nofun⟩
        | ok up =>
            cases hmaster : outcome.tap.master with
            | error message =>
                rw [hadd, hup, hmaster] at hresult
                cases hresult
                exact ⟨hgrows, nofun⟩
            | ok attached =>
                rw [hadd, hup, hmaster] at hresult
                cases hresult
                exact ⟨hgrows, fun _ =>
                  ⟨hknown, Finset.mem_insert_self _ _⟩⟩

/-- An action that leaves the interfaces and the call's own part alone. -/
theorem keeps_tapOwners_of_same
    {shared reached : Shared cfg} {creation after : Creation}
    (hlocally : (tapOwners cfg id).locally shared creation)
    (htaps : reached.node.taps = shared.node.taps)
    (htap : after.tap = creation.tap)
    (hhandle : after.handle = creation.handle) :
    (tapOwners cfg id).Keeps (fun _ => True) shared creation reached
      after where
  globally := trivial
  locally := by
    simp only [tapOwners, htaps, htap, hhandle]
    exact hlocally
  others := by
    intro other _ hother hapart
    simp only [tapOwners, htaps, htap]
    exact ⟨hother, hapart⟩
  demand := fun _ hneeds => hneeds.elim
  held := fun _ _ _ _ _ hneeds => hneeds.elim

theorem exec_keeps_tapOwners
    {outcome : Outcome} {action : Action} {shared reached : Shared cfg}
    {creation : Creation} {response : Response action}
    (hlocally : (tapOwners cfg id).locally shared creation)
    (hallowed : (creations cfg id).allowed creation action)
    (hexec : exec outcome action shared = some (response, reached)) :
    (tapOwners cfg id).Keeps (fun _ => True) shared creation reached
      ((creations cfg id).next creation action response) := by
  cases action with
  | createTap tap =>
      obtain ⟨hgrows, hcreated⟩ := exec_createTap hexec
      have hothers : ∀ other,
          (tapOwners cfg id).locally shared other →
            (tapOwners cfg id).locally reached other :=
        fun other hother =>
          ⟨fun htap => hgrows _ (hother.1 htap), hother.2⟩
      cases response with
      | error message =>
          exact .frame trivial hothers (fun _ h => h) (fun _ _ h => h)
            hlocally
      | ok done =>
          obtain ⟨hfresh, hmem⟩ := hcreated rfl
          by_cases hname : tap = tapName id
          · subst hname
            have hnext : (creations cfg id).next creation
                (.createTap (tapName id)) (.ok done) =
                { creation with tap := true } := by
              simp [creations, Creation.next]
            rw [hnext]
            refine ⟨trivial, ⟨fun _ => hmem, fun _ => rfl⟩, ?_,
              fun _ hneeds => hneeds.elim,
              fun _ _ _ _ _ hneeds => hneeds.elim⟩
            intro other _ hother _
            refine ⟨hothers other hother, ?_⟩
            intro hboth
            exact hfresh (hother.1 hboth.2)
          · have hnext : (creations cfg id).next creation
                (.createTap tap) (.ok done) = creation := by
              simp [creations, Creation.next, hname]
            rw [hnext]
            exact .frame trivial hothers (fun _ h => h) (fun _ _ h => h)
              hlocally
  | deleteTap tap =>
      obtain ⟨htap, hhandle⟩ := hallowed
      refine ⟨trivial, ⟨nofun, ?_⟩, ?_, fun _ hneeds => hneeds.elim,
        fun _ _ _ _ _ hneeds => hneeds.elim⟩
      · intro hsome
        have hkept : creation.handle.isSome = true := hsome
        rw [hhandle] at hkept
        cases hkept
      · intro other _ hother hapart
        have hfree : ¬ other.tap = true := fun hheld =>
          hapart ⟨htap, hheld⟩
        exact ⟨⟨fun hheld => absurd hheld hfree, hother.2⟩,
          fun hboth => hfree hboth.2⟩
  | insertVm vmId handle =>
      have htaps := (exec_sameExcept hexec).taps nofun
      refine ⟨trivial, ?_, ?_, fun _ hneeds => hneeds.elim,
        fun _ _ _ _ _ hneeds => hneeds.elim⟩
      · refine ⟨fun htap => ?_, fun _ => hallowed.2.1⟩
        rw [htaps]
        exact hlocally.1 htap
      · intro other _ hother hapart
        simp only [tapOwners, htaps]
        exact ⟨hother, hapart⟩
  | _ =>
      have hnext := next_of_not_movesTap id cfg creation response rfl
      exact keeps_tapOwners_of_same id hlocally
        (exec_taps_of_not_movesTap hexec rfl) hnext.1 hnext.2

/-! ## What a creation holds is in place -/

structure Creation.InPlace (id : String) (shared : Shared cfg)
    (creation : Creation) : Prop where
  tap : creation.tap = true → Net.tapName id ∈ shared.node.taps
  range : ∀ net, creation.range = some net →
    shared.node.ipv6Allocations.lookup id = some net
  hosts : ∀ name content, creation.hosts name = some content →
    shared.node.hostsdir.lookup name = some content
  listing : ∀ listing, creation.listing = some listing →
    creation.tap = true ∧ listing.TrueOf shared.node.ruleset
  chains : ∀ listing, creation.chains = some listing →
    creation.tap = true ∧ ChainsSetUp cfg.nftables listing
      shared.node.ruleset id (Net.tapName id)
  handle : ∀ handle, creation.handle = some handle →
    creation.tap = true ∧ creation.chains.isSome = true ∧
      creation.Registered cfg id handle ∧
      shared.node.vms.lookup id = some handle

variable {id}

/-- The parts of the state that the creation holds have not changed. -/
theorem Creation.InPlace.transfer
    {shared reached : Shared cfg} {creation : Creation}
    (hin : creation.InPlace id shared)
    (htap : creation.tap = true → tapName id ∈ reached.node.taps)
    (hrange : creation.range ≠ none →
      reached.node.ipv6Allocations.lookup id =
        shared.node.ipv6Allocations.lookup id)
    (hhosts : ∀ name, creation.hosts name ≠ none →
      reached.node.hostsdir.lookup name =
        shared.node.hostsdir.lookup name)
    (hruleset : creation.listing ≠ none ∨ creation.chains ≠ none →
      reached.node.ruleset = shared.node.ruleset)
    (hvms : creation.handle ≠ none →
      reached.node.vms.lookup id = shared.node.vms.lookup id) :
    creation.InPlace id reached where
  tap := htap
  range := by
    intro net hnet
    rw [hrange (by rw [hnet]; nofun)]
    exact hin.range net hnet
  hosts := by
    intro name content hcontent
    rw [hhosts name (by rw [hcontent]; nofun)]
    exact hin.hosts name content hcontent
  listing := by
    intro listing hlisting
    rw [hruleset (.inl (by rw [hlisting]; nofun))]
    exact hin.listing listing hlisting
  chains := by
    intro listing hchains
    rw [hruleset (.inr (by rw [hchains]; nofun))]
    exact hin.chains listing hchains
  handle := by
    intro handle hhandle
    rw [hvms (by rw [hhandle]; nofun)]
    exact hin.handle handle hhandle

/-- An action on another resource. -/
theorem Creation.InPlace.same
    {shared reached : Shared cfg} {creation : Creation}
    {resource : Resource} (hin : creation.InPlace id shared)
    (hsame : SameExcept resource shared reached)
    (hother : [Resource.machines, .ranges, .reservations, .taps,
      .firewall].contains resource = false) :
    creation.InPlace id reached := by
  have hne : ∀ relevant ∈ [Resource.machines, .ranges, .reservations,
      .taps, .firewall], resource ≠ relevant := by
    intro relevant hmem heq
    rw [heq, List.contains_iff_mem.mpr hmem] at hother
    cases hother
  apply hin.transfer
  · rw [hsame.taps (hne _ (by simp))]
    exact hin.tap
  · exact fun _ => by rw [hsame.ipv6Allocations (hne _ (by simp))]
  · exact fun _ _ => by rw [hsame.hostsdir (hne _ (by simp))]
  · exact fun _ => hsame.ruleset (hne _ (by simp))
  · exact fun _ => by rw [hsame.vms (hne _ (by simp))]

/-- The step does not change a range or a reservation file that another call
holds. -/
def untouched (outcome : Outcome) (action : Action)
    (response : Response action) (other : Creation) : Bool :=
  match action, response with
  | .allocateIpv6 _ _, .ok (some _) => other.range.isNone
  | .releaseIpv6 _, _ => other.range.isNone
  | .tryReleaseIpv6 _, _ => !outcome.done || other.range.isNone
  | .writeHosts name _, _ =>
      match outcome.write with
      | .refused _ => true
      | _ => (other.hosts name).isNone
  | .removeHosts name, _ => !outcome.done || (other.hosts name).isNone
  | _, _ => true

/-- The files under other names are the same after an action on one. -/
theorem exec_hostsdir
    {outcome : Outcome} {action : Action} {shared reached : Shared cfg}
    {response : Response action} {name : String}
    (hexec : exec outcome action shared = some (response, reached))
    (haction : (∃ content, action = .writeHosts name content) ∨
      action = .removeHosts name) {other : String} (hne : other ≠ name) :
    reached.node.hostsdir.lookup other =
      shared.node.hostsdir.lookup other := by
  rcases haction with ⟨content, hwrite⟩ | hremove
  · subst hwrite
    have hresult : shared.writeHosts outcome.write name content =
        (response, reached) := Option.some.inj hexec
    unfold Shared.writeHosts writeFile at hresult
    cases hwrite : outcome.write with
    | written =>
        rw [hwrite] at hresult
        cases hresult
        exact AList.lookup_insert_ne hne
    | refused message =>
        rw [hwrite] at hresult
        cases hresult
        rfl
    | cut length message =>
        rw [hwrite] at hresult
        cases hresult
        exact AList.lookup_insert_ne hne
  · subst hremove
    cases hexec
    simp only [removeFile]
    split
    · exact AList.lookup_erase_ne hne
    · rfl

section Effects

variable {shared reached : Shared cfg} {creation : Creation}

theorem Creation.InPlace.ranges
    (hin : creation.InPlace id shared) (hrange : creation.range = none)
    (hsame : SameExcept .ranges shared reached) :
    creation.InPlace id reached := by
  apply hin.transfer
  · rw [hsame.taps nofun]
    exact hin.tap
  · exact fun hsome => absurd hrange hsome
  · exact fun _ _ => by rw [hsame.hostsdir nofun]
  · exact fun _ => hsame.ruleset nofun
  · exact fun _ => by rw [hsame.vms nofun]

theorem Creation.InPlace.reservations
    {name : String} (hin : creation.InPlace id shared)
    (hhosts : creation.hosts name = none)
    (hsame : SameExcept .reservations shared reached)
    (hfiles : ∀ other, other ≠ name →
      reached.node.hostsdir.lookup other =
        shared.node.hostsdir.lookup other) :
    creation.InPlace id reached := by
  apply hin.transfer
  · rw [hsame.taps nofun]
    exact hin.tap
  · exact fun _ => by rw [hsame.ipv6Allocations nofun]
  · intro other hsome
    apply hfiles other
    intro heq
    rw [heq] at hsome
    exact hsome hhosts
  · exact fun _ => hsame.ruleset nofun
  · exact fun _ => by rw [hsame.vms nofun]

theorem Creation.InPlace.interfaces
    (hin : creation.InPlace id shared)
    (hsame : SameExcept .taps shared reached)
    (htap : creation.tap = true → tapName id ∈ reached.node.taps) :
    creation.InPlace id reached := by
  apply hin.transfer htap
  · exact fun _ => by rw [hsame.ipv6Allocations nofun]
  · exact fun _ _ => by rw [hsame.hostsdir nofun]
  · exact fun _ => hsame.ruleset nofun
  · exact fun _ => by rw [hsame.vms nofun]

theorem Creation.InPlace.rules
    (hin : creation.InPlace id shared) (hlisting : creation.listing = none)
    (hchains : creation.chains = none)
    (hsame : SameExcept .firewall shared reached) :
    creation.InPlace id reached := by
  apply hin.transfer
  · rw [hsame.taps nofun]
    exact hin.tap
  · exact fun _ => by rw [hsame.ipv6Allocations nofun]
  · exact fun _ _ => by rw [hsame.hostsdir nofun]
  · intro hsome
    rcases hsome with hsome | hsome
    · exact absurd hlisting hsome
    · exact absurd hchains hsome
  · exact fun _ => by rw [hsame.vms nofun]

theorem Creation.InPlace.machines
    (hin : creation.InPlace id shared) (hhandle : creation.handle = none)
    (hsame : SameExcept .machines shared reached) :
    creation.InPlace id reached := by
  apply hin.transfer
  · rw [hsame.taps nofun]
    exact hin.tap
  · exact fun _ => by rw [hsame.ipv6Allocations nofun]
  · exact fun _ _ => by rw [hsame.hostsdir nofun]
  · exact fun _ => hsame.ruleset nofun
  · exact fun hsome => absurd hhandle hsome

/-- Without the interface a creation has neither chains nor a handle. -/
theorem Creation.InPlace.without_tap
    (hin : creation.InPlace id shared) (htap : ¬ creation.tap = true) :
    creation.listing = none ∧ creation.chains = none ∧
      creation.handle = none := by
  refine ⟨?_, ?_, ?_⟩
  · exact Option.eq_none_iff_forall_ne_some.mpr fun listing hlisting =>
      htap (hin.listing listing hlisting).1
  · exact Option.eq_none_iff_forall_ne_some.mpr fun listing hchains =>
      htap (hin.chains listing hchains).1
  · exact Option.eq_none_iff_forall_ne_some.mpr fun handle hhandle =>
      htap (hin.handle handle hhandle).1

theorem exec_allocateIpv6
    {outcome : Outcome} {vmId : String} {requested : Option Ipv6Net}
    {response : Except Failure (Option Ipv6Net)}
    (hexec : exec outcome (.allocateIpv6 vmId requested) shared =
      some (response, reached)) :
    (∀ other, other ≠ vmId → reached.node.ipv6Allocations.lookup other =
      shared.node.ipv6Allocations.lookup other) ∧
    ((∀ net, response ≠ .ok (some net)) → reached = shared) ∧
    ∀ net, response = .ok (some net) →
      reached.node.ipv6Allocations.lookup vmId = some net := by
  have hresult : shared.allocateIpv6 outcome.draws vmId requested =
      (response, reached) := Option.some.inj hexec
  unfold Shared.allocateIpv6 Node.allocateIpv6 at hresult
  cases halloc : shared.node.ipv6Allocator with
  | none =>
      rw [halloc] at hresult
      cases hresult
      refine ⟨fun _ _ => rfl, fun _ => rfl, ?_⟩
      intro net hnet
      cases hnet
  | some alloc =>
      have hentries : alloc.allocations = shared.node.ipv6Allocations := by
        unfold Node.ipv6Allocator at halloc
        obtain ⟨pool, _, hpool⟩ := Option.map_eq_some_iff.mp halloc
        rw [← hpool]
      rw [halloc] at hresult
      simp only [Ipv6RangeAllocator.allocate] at hresult
      cases hchoose : alloc.chooseNet outcome.draws requested with
      | error failure =>
          rw [hchoose] at hresult
          cases hresult
          refine ⟨fun _ _ => rfl, fun _ => rfl, ?_⟩
          intro net hnet
          cases hnet
      | ok found =>
          rw [hchoose] at hresult
          cases hresult
          refine ⟨?_, fun hnone => absurd rfl (hnone found), ?_⟩
          · intro other hne
            rw [← hentries]
            exact AList.lookup_insert_ne hne
          · intro net hnet
            cases hnet
            exact AList.lookup_insert _

end Effects

/-- An action of one creation keeps what another one holds, if it does not
touch the range or the file. -/
theorem exec_others_inPlace
    {outcome : Outcome} {action : Action} {shared reached : Shared cfg}
    {creation other : Creation} {response : Response action}
    (hallowed : (creations cfg id).allowed creation action)
    (hexec : exec outcome action shared = some (response, reached))
    (hin : other.InPlace id shared)
    (hapart : ¬ (creation.tap = true ∧ other.tap = true))
    (huntouched : untouched outcome action response other = true) :
    other.InPlace id reached := by
  have hsame := exec_sameExcept hexec
  cases action with
  | allocateIpv6 vmId requested =>
      have hunchanged := (exec_allocateIpv6 hexec).2.1
      match response with
      | .ok (some net) =>
          exact hin.ranges (Option.isNone_iff_eq_none.mp huntouched) hsame
      | .ok none =>
          rw [hunchanged nofun]
          exact hin
      | .error failure =>
          rw [hunchanged nofun]
          exact hin
  | releaseIpv6 vmId =>
      exact hin.ranges (Option.isNone_iff_eq_none.mp huntouched) hsame
  | tryReleaseIpv6 vmId =>
      rcases Bool.or_eq_true_iff.mp huntouched with hleft | hnone
      · rw [Bool.not_eq_true'] at hleft
        cases hexec
        rw [hleft]
        exact hin
      · exact hin.ranges (Option.isNone_iff_eq_none.mp hnone) hsame
  | writeHosts name content =>
      have hfiles := fun other (hne : other ≠ name) =>
        exec_hostsdir hexec (.inl ⟨content, rfl⟩) hne
      simp only [untouched] at huntouched
      split at huntouched
      · rename_i message hwrite
        have hresult : shared.writeHosts outcome.write name content =
            (response, reached) := Option.some.inj hexec
        unfold Shared.writeHosts writeFile at hresult
        rw [hwrite] at hresult
        cases hresult
        exact hin
      · exact hin.reservations (Option.isNone_iff_eq_none.mp huntouched)
          hsame hfiles
  | removeHosts name =>
      have hfiles := fun other (hne : other ≠ name) =>
        exec_hostsdir hexec (.inr rfl) hne
      rcases Bool.or_eq_true_iff.mp huntouched with hleft | hnone
      · rw [Bool.not_eq_true'] at hleft
        cases hexec
        rw [hleft]
        exact hin
      · exact hin.reservations (Option.isNone_iff_eq_none.mp hnone) hsame
          hfiles
  | createTap tap =>
      exact hin.interfaces hsame fun htap =>
        (exec_createTap hexec).1 _ (hin.tap htap)
  | addTapAddress tap net =>
      cases hexec
      exact hin
  | deleteTap tap =>
      apply hin.interfaces hsame
      intro htap
      exact absurd ⟨hallowed.1, htap⟩ hapart
  | listRuleset purpose =>
      cases hexec
      exact hin
  | runNft purpose commands =>
      have hfree : ¬ other.tap = true := fun htap =>
        hapart ⟨hallowed.1, htap⟩
      obtain ⟨hlisting, hchains, _⟩ := hin.without_tap hfree
      exact hin.rules hlisting hchains hsame
  | insertVm vmId handle =>
      have hfree : ¬ other.tap = true := fun htap =>
        hapart ⟨hallowed.2.1, htap⟩
      obtain ⟨_, _, hhandle⟩ := hin.without_tap hfree
      exact hin.machines hhandle hsame
  | removeVm vmId => exact hallowed.elim
  | unlockVms => exact hallowed.elim
  | _ => exact hin.same hsame rfl

/-! ## What a creation acquires -/

section Acquire

variable {shared reached : Shared cfg} {creation : Creation}

/-- What a creation without a handle says about its handle. -/
theorem noHandle (hhandle : creation.handle = none) :
    ∀ handle, creation.handle = some handle →
      creation.tap = true ∧ creation.chains.isSome = true ∧
        creation.Registered cfg id handle ∧
        shared.node.vms.lookup id = some handle := by
  intro handle hsome
  rw [hhandle] at hsome
  cases hsome

theorem Creation.InPlace.dropRange
    (hin : creation.InPlace id shared) (hhandle : creation.handle = none) :
    { creation with range := none }.InPlace id shared where
  tap := hin.tap
  range := nofun
  hosts := hin.hosts
  listing := hin.listing
  chains := hin.chains
  handle := by
    intro handle hsome
    rw [hhandle] at hsome
    cases hsome

theorem Creation.InPlace.dropHosts
    (hin : creation.InPlace id shared) (hhandle : creation.handle = none)
    (name : String) :
    { creation with hosts := setHosts creation.hosts name none }.InPlace id
      shared where
  tap := hin.tap
  range := hin.range
  hosts := by
    intro other content hcontent
    simp only [setHosts] at hcontent
    split at hcontent
    · cases hcontent
    · exact hin.hosts other content hcontent
  listing := hin.listing
  chains := hin.chains
  handle := by
    intro handle hsome
    rw [hhandle] at hsome
    cases hsome

theorem exec_writeHosts
    {outcome : Outcome} {name content : String}
    (hexec : exec outcome (.writeHosts name content) shared =
      some (.ok (), reached)) :
    reached.node.hostsdir.lookup name = some content := by
  have hresult : shared.writeHosts outcome.write name content =
      (.ok (), reached) := Option.some.inj hexec
  unfold Shared.writeHosts writeFile at hresult
  cases hwrite : outcome.write with
  | written =>
      rw [hwrite] at hresult
      cases hresult
      exact AList.lookup_insert _
  | refused message =>
      rw [hwrite] at hresult
      cases hresult
  | cut length message =>
      rw [hwrite] at hresult
      cases hresult

/-- A write that failed or a removal leaves the file to nobody. -/
theorem exec_hosts_dropped
    {outcome : Outcome} {action : Action} {response : Response action}
    {name : String} (hin : creation.InPlace id shared)
    (hhandle : creation.handle = none)
    (hexec : exec outcome action shared = some (response, reached))
    (haction : (∃ content, action = .writeHosts name content) ∨
      action = .removeHosts name) :
    { creation with hosts := setHosts creation.hosts name none }.InPlace id
      reached := by
  have hresource : action.resource = .reservations := by
    rcases haction with ⟨content, hwrite⟩ | hremove
    · rw [hwrite]
      rfl
    · rw [hremove]
      rfl
  have hsame := exec_sameExcept hexec
  rw [hresource] at hsame
  apply (hin.dropHosts hhandle name).reservations _ hsame
  · exact fun _ hne => exec_hostsdir hexec haction hne
  · simp [setHosts]

/-- A call that has no handle yet may drop the interface and the chains. -/
theorem Creation.InPlace.dropTap
    (hin : creation.InPlace id shared) (hhandle : creation.handle = none) :
    { creation with
      tap := false, listing := none, chains := none }.InPlace id
        shared where
  tap := nofun
  range := hin.range
  hosts := hin.hosts
  listing := nofun
  chains := nofun
  handle := by
    intro handle hsome
    rw [hhandle] at hsome
    cases hsome

theorem exec_runNft_inPlace
    {outcome : Outcome} {purpose : NftUse} {commands : List NftCommand}
    (hin : creation.InPlace id shared) (htap : creation.tap = true)
    (hhandle : creation.handle = none)
    (hexec : exec outcome (.runNft purpose commands) shared =
      some (.ok (), reached)) :
    { creation with
      listing := none
      chains := creation.setUpFrom cfg id commands }.InPlace id
        reached := by
  have hbare : { creation with listing := none, chains := none }.InPlace id
      shared := {
    tap := hin.tap
    range := hin.range
    hosts := hin.hosts
    listing := nofun
    chains := nofun
    handle := by
      intro handle hsome
      rw [hhandle] at hsome
      cases hsome }
  have hkept := hbare.rules rfl rfl (exec_sameExcept hexec)
  refine { hkept with chains := ?_, handle := ?_ }
  · intro listing hchains
    obtain ⟨hlisting, hderived⟩ := Option.filter_eq_some_iff.mp hchains
    refine ⟨htap, ?_⟩
    have hbatch : shared.node.ruleset.applyBatch commands =
        some reached.node.ruleset := by
      cases exec_runNft_effect hexec with
      | applied ruleset hexecuted =>
          exact executeNftCommands_eq_ok hexecuted
    have hcommands : cfg.nftables.setupCommands listing id (tapName id) =
        .ok commands := by
      cases hsetup : cfg.nftables.setupCommands listing id
          (tapName id) with
      | error message =>
          rw [hsetup] at hderived
          cases hderived
      | ok derived =>
          rw [hsetup] at hderived
          rw [eq_of_beq hderived]
    exact NftablesManager.setupCommands_setUp
      (hin.listing listing hlisting).2 hcommands hbatch
  · intro handle hsome
    have hkeptHandle : creation.handle = some handle := hsome
    rw [hhandle] at hkeptHandle
    cases hkeptHandle

/-- An action of a creation establishes what its new part says. -/
theorem exec_own_inPlace
    {outcome : Outcome} {action : Action} {response : Response action}
    (hallowed : (creations cfg id).allowed creation action)
    (hexec : exec outcome action shared = some (response, reached))
    (hin : creation.InPlace id shared) :
    ((creations cfg id).next creation action response).InPlace id
      reached := by
  have hsame := exec_sameExcept hexec
  cases action with
  | allocateIpv6 vmId requested =>
      obtain ⟨hothers, hunchanged, hfound⟩ := exec_allocateIpv6 hexec
      cases response with
      | error failure =>
          rw [hunchanged nofun]
          exact hin
      | ok net =>
          simp only [creations, Creation.next]
          split
          · rename_i hid
            subst hid
            have hkept := (hin.dropRange hallowed).ranges rfl hsame
            refine { hkept with range := ?_, handle := ?_ }
            · intro found hnet
              exact hfound found (congrArg Except.ok hnet)
            · exact noHandle hallowed
          · rename_i hid
            apply hin.transfer
            · rw [hsame.taps nofun]
              exact hin.tap
            · exact fun _ => hothers id (Ne.symm hid)
            · exact fun _ _ => by rw [hsame.hostsdir nofun]
            · exact fun _ => hsame.ruleset nofun
            · exact fun _ => by rw [hsame.vms nofun]
  | releaseIpv6 vmId => exact (hin.dropRange hallowed).ranges rfl hsame
  | tryReleaseIpv6 vmId => exact (hin.dropRange hallowed).ranges rfl hsame
  | writeHosts name content =>
      have hdropped := exec_hosts_dropped hin hallowed hexec
        (.inl ⟨content, rfl⟩)
      cases response with
      | error message => exact hdropped
      | ok done =>
          refine { hdropped with hosts := ?_, handle := ?_ }
          · intro other found hfound
            simp only [creations, Creation.next, setHosts] at hfound
            split at hfound
            · rename_i hname
              rw [hname, ← hfound]
              exact exec_writeHosts hexec
            · rename_i hname
              rw [exec_hostsdir hexec (.inl ⟨content, rfl⟩) hname]
              exact hin.hosts other found hfound
          · exact noHandle hallowed
  | removeHosts name =>
      exact exec_hosts_dropped hin hallowed hexec (.inr rfl)
  | createTap tap =>
      obtain ⟨hgrows, hcreated⟩ := exec_createTap hexec
      have hkept : creation.InPlace id reached :=
        hin.interfaces hsame fun htap => hgrows _ (hin.tap htap)
      cases response with
      | error message => exact hkept
      | ok done =>
          simp only [creations, Creation.next]
          split
          · rename_i hname
            subst hname
            refine { hkept with
              tap := fun _ => (hcreated rfl).2
              listing := ?_, chains := ?_, handle := ?_ }
            · intro listing hlisting
              exact ⟨rfl, (hkept.listing listing hlisting).2⟩
            · intro listing hchains
              exact ⟨rfl, (hkept.chains listing hchains).2⟩
            · exact noHandle hallowed
          · exact hkept
  | addTapAddress tap net =>
      cases hexec
      exact hin
  | deleteTap tap =>
      exact (hin.dropTap hallowed.2).interfaces hsame nofun
  | listRuleset purpose =>
      have hlisted : executeListRuleset outcome.nft.list
          shared.node.ruleset = response :=
        congrArg Prod.fst (Option.some.inj hexec)
      have hshared : shared = reached :=
        congrArg Prod.snd (Option.some.inj hexec)
      subst hshared
      cases response with
      | error message => exact hin
      | ok listing =>
          refine { hin with listing := ?_, handle := ?_ }
          · intro found hfound
            cases hfound
            exact ⟨hallowed, executeListRuleset_trueOf hlisted⟩
          · intro handle hhandle
            obtain ⟨htap, hchains, hregistered, hlookup⟩ :=
              hin.handle handle hhandle
            exact ⟨htap, hchains, hregistered.congr rfl rfl, hlookup⟩
  | runNft purpose commands =>
      cases response with
      | error message =>
          cases exec_runNft_effect hexec with
          | failed failure hfailed => exact hin
      | ok done => exact exec_runNft_inPlace hin hallowed.1 hallowed.2 hexec
  | insertVm vmId handle =>
      obtain ⟨hid, htap, hchains, hregistered⟩ := hallowed
      subst hid
      have hbare : { creation with handle := none }.InPlace vmId
          shared := by
        refine { hin with handle := ?_ }
        intro found hfound
        cases hfound
      have hkept := hbare.machines rfl hsame
      refine { hkept with handle := ?_ }
      intro found hfound
      cases hfound
      refine ⟨htap, hchains, ?_, ?_⟩
      · exact hregistered.congr rfl rfl
      · cases (unlessLocked_eq_some.mp hexec).2
        exact AList.lookup_insert _
  | removeVm vmId => exact hallowed.elim
  | unlockVms => exact hallowed.elim
  | _ => exact hin.same hsame rfl

end Acquire

/-! ## Runs of two creations -/

def creationOwners (cfg : NodeConfig) (id : String) :
    Assertions (Shared cfg) Creation Unit where
  globally := fun _ => True
  locally := fun shared creation => creation.InPlace id shared
  apart := fun creation other =>
    ¬ (creation.tap = true ∧ other.tap = true)
  needs := fun _ _ => False
  holds := fun _ _ _ => False
  apart_symm := fun hnot hboth => hnot ⟨hboth.2, hboth.1⟩

theorem Creation.InPlace.tapOwned
    {shared : Shared cfg} {creation : Creation}
    (hin : creation.InPlace id shared) :
    (tapOwners cfg id).locally shared creation := by
  refine ⟨hin.tap, ?_⟩
  intro hsome
  obtain ⟨handle, hhandle⟩ := Option.isSome_iff_exists.mp hsome
  exact (hin.handle handle hhandle).1

theorem exec_keeps_creationOwners
    {outcome : Outcome} {action : Action} {shared reached : Shared cfg}
    {creation : Creation} {response : Response action}
    (hlocally : (creationOwners cfg id).locally shared creation)
    (hallowed : (creations cfg id).allowed creation action)
    (hexec : exec outcome action shared = some (response, reached)) :
    (creationOwners cfg id).Keeps
      (fun other => untouched outcome action response other = true)
      shared creation reached
      ((creations cfg id).next creation action response) where
  globally := trivial
  locally := exec_own_inPlace hallowed hexec hlocally
  others := by
    intro other huntouched hother hapart
    refine ⟨exec_others_inPlace hallowed hexec hother hapart huntouched, ?_⟩
    have htaps := exec_keeps_tapOwners id hlocally.tapOwned hallowed hexec
    exact (htaps.others other trivial hother.tapOwned hapart).2
  demand := fun _ hneeds => hneeds.elim
  held := fun _ _ _ _ _ hneeds => hneeds.elim

/-- A step of a call or of a unit. -/
def Event.isStep : Event → Bool
  | .advance _ _ => true
  | .unit _ _ => true
  | .call _ => false
  | .crash _ => false

/-- No step changes a range or a reservation file that another call
holds. -/
def RangesUntouched (id : String) : System cfg → Event → Prop :=
  EventMeets (creations cfg id) (fun _ _ _ _ _ => True)
    (fun _ outcome _ action response other =>
      untouched outcome action response other = true)
    (fun _ _ => True)

instance RangesUntouched.decidable (id : String) (system : System cfg)
    (event : Event) : Decidable (RangesUntouched id system event) :=
  EventMeets.decidable _ _ _ _ system event

theorem step_keeps_tapOwners
    {system : System cfg} {event : Event}
    (hkept : system.Kept (creations cfg id) (tapOwners cfg id))
    (hstep : event.isStep = true) :
    (step system event).Kept (creations cfg id) (tapOwners cfg id) := by
  cases event with
  | advance index outcome =>
      have hmeets : system.Meets exec (creations cfg id)
          (fun _ _ _ _ _ => True) (fun _ _ _ _ _ _ => True) index
          outcome := fun _ _ => ⟨trivial, fun _ _ => trivial⟩
      apply Pool.Kept.advance _ _ hkept hmeets
      · exact fun _ _ _ => trivial
      · intro shared outcome creation action response reached _ hlocally
          hallowed hexec _
        exact exec_keeps_tapOwners id hlocally hallowed hexec
  | unit changed state =>
      refine ⟨hkept.follows, ?_⟩
      rw [step, Shared.evolveUnit_eq]
      exact hkept.hold.environment trivial (fun _ h => h) (fun _ h => h)
        (fun _ _ h => h)
  | call made => cases hstep
  | crash calls => cases hstep

theorem step_keeps_creationOwners
    {system : System cfg} {event : Event}
    (hkept : system.Kept (creations cfg id) (creationOwners cfg id))
    (hstep : event.isStep = true)
    (huntouched : RangesUntouched id system event) :
    (step system event).Kept (creations cfg id)
      (creationOwners cfg id) := by
  cases event with
  | advance index outcome =>
      apply Pool.Kept.advance _ _ hkept (EventMeets.meets huntouched)
      · exact fun _ _ _ => trivial
      · intro shared outcome creation action response reached _ hlocally
          hallowed hexec _
        exact exec_keeps_creationOwners hlocally hallowed hexec
  | unit changed state =>
      refine ⟨hkept.follows, ?_⟩
      rw [step, Shared.evolveUnit_eq]
      refine hkept.hold.environment trivial ?_ (fun _ h => h)
        (fun _ _ h => h)
      intro creation hin
      exact ⟨hin.tap, hin.range, hin.hosts, hin.listing, hin.chains,
        hin.handle⟩
  | call made => cases hstep
  | crash calls => cases hstep

/-- Two calls, both at their beginning. -/
def bothCalled (shared : Shared cfg) (first second : Call) : System cfg :=
  (Pool.call (program cfg) ⟨shared, []⟩ first).call (program cfg) second

theorem program_creations
    {config : VmConfig} (hconfig : config.vmId = id)
    (requestedIpv6 : Option Ipv6Net) (numaHint : Option UInt32) :
    (program cfg (.createVm config requestedIpv6 numaHint)).Follows
      (creations cfg id) (creations cfg id).returns .begun := by
  refine Program.follows_bind.mpr
    ((createVm_creations cfg id hconfig requestedIpv6 numaHint).mono ?_)
  exact fun _ _ hreturns => hreturns

theorem begun_inPlace (shared : Shared cfg) :
    Creation.begun.InPlace id shared where
  tap := fun htap => nomatch htap
  range := fun _ hrange => nomatch hrange
  hosts := fun _ _ hhosts => nomatch hhosts
  listing := fun _ hlisting => nomatch hlisting
  chains := fun _ hchains => nomatch hchains
  handle := fun _ hhandle => nomatch hhandle

section Both

variable {first second : VmConfig} (hfirst : first.vmId = id)
  (hsecond : second.vmId = id) (shared : Shared cfg)
  (firstIpv6 secondIpv6 : Option Ipv6Net)
  (firstHint secondHint : Option UInt32)

include hfirst hsecond

theorem bothCalled_kept
    {assertions : Assertions (Shared cfg) Creation Unit}
    (hglobally : assertions.globally shared)
    (hneeds : ∀ demand, ¬ assertions.needs shared demand)
    (hlocally : assertions.locally shared .begun)
    (hapart : ∀ other, assertions.apart other .begun) :
    (bothCalled shared (.createVm first firstIpv6 firstHint)
      (.createVm second secondIpv6 secondHint)).Kept (creations cfg id)
        assertions := by
  have hempty : Pool.Kept (creations cfg id) assertions
      (⟨shared, []⟩ : System cfg) := Pool.Kept.empty hglobally hneeds
  have hone := hempty.call
    (program_creations hfirst firstIpv6 firstHint) hlocally hapart
  exact hone.call (program_creations hsecond secondIpv6 secondHint)
    hlocally hapart

theorem run_tapOwners
    {events : List Event} (hsteps : ∀ event ∈ events, event.isStep = true) :
    (run step (bothCalled shared (.createVm first firstIpv6 firstHint)
      (.createVm second secondIpv6 secondHint)) events).Kept
        (creations cfg id) (tapOwners cfg id) := by
  apply run_invariant_of_along (fun _ _ => step_keeps_tapOwners)
  · apply bothCalled_kept hfirst hsecond
    · trivial
    · exact fun _ hneeds => hneeds
    · exact (begun_inPlace shared).tapOwned
    · intro other hboth
      cases hboth.2
  · exact along_of_forall hsteps _

theorem run_creationOwners
    {events : List Event} (hsteps : ∀ event ∈ events, event.isStep = true)
    (huntouched : Along step (RangesUntouched id)
      (bothCalled shared (.createVm first firstIpv6 firstHint)
        (.createVm second secondIpv6 secondHint)) events) :
    (run step (bothCalled shared (.createVm first firstIpv6 firstHint)
      (.createVm second secondIpv6 secondHint)) events).Kept
        (creations cfg id) (creationOwners cfg id) := by
  apply run_invariant_of_along
    (fun _ _ hkept (hevent : _ ∧ _) =>
      step_keeps_creationOwners hkept hevent.1 hevent.2)
  · apply bothCalled_kept hfirst hsecond
    · trivial
    · exact fun _ hneeds => hneeds
    · exact begun_inPlace shared
    · intro other hboth
      cases hboth.2
  · exact along_and (along_of_forall hsteps _) huntouched

end Both

/-- A listing in the summary of a call is the response of one of its
actions. -/
theorem next_listed
    (creation : Creation) {action : Action} (response : Response action)
    {listing : Listing}
    (hlisted : (creation.next cfg id action response).listing =
        some listing ∨
      (creation.next cfg id action response).chains = some listing) :
    (creation.listing = some listing ∨ creation.chains = some listing) ∨
      ∃ purpose, (⟨action, response⟩ : Σ action, Response action) =
        ⟨.listRuleset purpose, .ok listing⟩ := by
  cases action with
  | allocateIpv6 vmId requested =>
      left
      cases response with
      | error failure => exact hlisted
      | ok net =>
          simp only [Creation.next] at hlisted
          split at hlisted
          · exact hlisted
          · exact hlisted
  | writeHosts name content => cases response <;> exact .inl hlisted
  | createTap tap =>
      left
      cases response with
      | error message => exact hlisted
      | ok done =>
          simp only [Creation.next] at hlisted
          split at hlisted
          · exact hlisted
          · exact hlisted
  | deleteTap tap =>
      rcases hlisted with hnone | hnone
      · cases hnone
      · cases hnone
  | listRuleset purpose =>
      cases response with
      | error message => exact .inl hlisted
      | ok found =>
          rcases hlisted with hfound | hchains
          · cases hfound
            exact .inr ⟨purpose, rfl⟩
          · exact .inl (.inr hchains)
  | runNft purpose commands =>
      left
      cases response with
      | error message => exact hlisted
      | ok done =>
          rcases hlisted with hnone | hchains
          · cases hnone
          · exact .inl (Option.filter_eq_some_iff.mp hchains).1
  | _ => exact .inl hlisted

theorem listed_of_ghost
    {task : VmTask} {listing : Listing}
    (hlisted : (task.ghost (creations cfg id)).listing = some listing ∨
      (task.ghost (creations cfg id)).chains = some listing) :
    ∃ purpose, (⟨.listRuleset purpose, .ok listing⟩ :
      Σ action, Response action) ∈ task.past := by
  obtain ⟨call, past, rest⟩ := task
  induction past using List.reverseRecOn generalizing rest with
  | nil =>
      rcases hlisted with hnone | hnone
      · cases hnone
      · cases hnone
  | append_singleton past entry ih =>
      obtain ⟨action, response⟩ := entry
      have hsnoc : Task.ghost (creations cfg id)
          ⟨call, past ++ [⟨action, response⟩], rest⟩ =
          (creations cfg id).next
            (Task.ghost (creations cfg id) ⟨call, past, rest⟩) action
            response := Task.ghost_snoc ⟨call, past, rest⟩ action response rest
      rw [hsnoc] at hlisted
      rcases next_listed _ response hlisted with hbefore | ⟨purpose, hentry⟩
      · obtain ⟨purpose, hmem⟩ := ih rest hbefore
        exact ⟨purpose, List.mem_append_left _ hmem⟩
      · refine ⟨purpose, List.mem_append_right _ ?_⟩
        rw [hentry]
        exact List.mem_cons_self

/-- Everything that belongs to the machine is there and belongs to the
handle.  The listing says in which tables the chains are. -/
structure VmStands (id : String) (shared : Shared cfg) (listing : Listing)
    (handle : VmHandle) : Prop where
  vms : shared.node.vms.lookup id = some handle
  tap : handle.tapName = tapName id ∧ tapName id ∈ shared.node.taps
  dhcp : cfg.dhcpHostsdir.isSome = true →
    shared.node.hostsdir.lookup id =
      some (dhcpLine (macForVmIp handle.ip) handle.ip)
  dhcpv6 : cfg.dhcpHostsdir.isSome = true → ∀ net,
    handle.ipv6 = some net →
      shared.node.hostsdir.lookup (dhcpv6File id) =
        some (dhcpv6Line (macForVmIp handle.ip) net.addr)
  range : ∀ net, handle.ipv6 = some net →
    shared.node.ipv6Allocations.lookup id = some net
  chains : ChainsSetUp cfg.nftables listing shared.node.ruleset id
    (tapName id)

theorem Creation.InPlace.stands
    {shared : Shared cfg} {creation : Creation} {handle : VmHandle}
    (hin : creation.InPlace id shared)
    (hhandle : creation.handle = some handle) :
    ∃ listing, creation.chains = some listing ∧
      VmStands id shared listing handle := by
  obtain ⟨htap, hchains, hregistered, hlookup⟩ := hin.handle handle hhandle
  obtain ⟨listing, hlisting⟩ := Option.isSome_iff_exists.mp hchains
  refine ⟨listing, hlisting, ?_⟩
  constructor
  · exact hlookup
  · exact ⟨hregistered.tapName, hin.tap htap⟩
  · exact fun hdhcp => hin.hosts id _ (hregistered.dhcp hdhcp)
  · exact fun hdhcp net hnet =>
      hin.hosts _ _ (hregistered.dhcpv6 hdhcp net hnet)
  · exact fun net hnet => hin.range net (hregistered.range.trans hnet)
  · exact (hin.chains listing hlisting).2

/-- The call with the number is a creation that has returned `Ok`. -/
def created (system : System cfg) (index : ℕ) : Option VmInfo :=
  match system.tasks[index]? with
  | none => none
  | some task =>
      match task.result with
      | some (.created (.ok info)) => some info
      | _ => none

theorem created_eq_some
    {system : System cfg} {index : ℕ} {info : VmInfo}
    (hcreated : created system index = some info) :
    ∃ task, system.tasks[index]? = some task ∧
      task.result = some (.created (.ok info)) := by
  unfold created at hcreated
  split at hcreated
  · cases hcreated
  · rename_i task htask
    split at hcreated
    · rename_i found hresult
      cases hcreated
      exact ⟨task, htask, hresult⟩
    · cases hcreated

/-- A creation that has returned `Ok` holds the interface. -/
theorem tap_of_created
    {system : System cfg} {index : ℕ} {info : VmInfo}
    (hkept : system.Kept (creations cfg id) (tapOwners cfg id))
    (hcreated : created system index = some info) :
    ∃ creation, (system.ghosts (creations cfg id))[index]? =
      some creation ∧ creation.tap = true := by
  obtain ⟨task, htask, hresult⟩ := created_eq_some hcreated
  have hmem := List.mem_of_getElem? htask
  obtain ⟨handle, now, hhandle, _⟩ :=
    Task.returns_of_result (hkept.follows task hmem) hresult info rfl
  refine ⟨task.ghost (creations cfg id), ?_, ?_⟩
  · simp only [Pool.ghosts, List.getElem?_map, htask, Option.map_some]
  · apply (hkept.hold.locally _ (List.mem_map_of_mem hmem)).2
    rw [hhandle]
    rfl

theorem created_once
    {system : System cfg} {first second : ℕ} {firstInfo secondInfo : VmInfo}
    (hkept : system.Kept (creations cfg id) (tapOwners cfg id))
    (hfirst : created system first = some firstInfo)
    (hsecond : created system second = some secondInfo) :
    first = second := by
  obtain ⟨winner, hwinner, hheld⟩ := tap_of_created hkept hfirst
  obtain ⟨other, hother, hotherHeld⟩ := tap_of_created hkept hsecond
  have hpairs := List.pairwise_iff_getElem.mp hkept.hold.apart
  obtain ⟨hlt, hget⟩ := List.getElem?_eq_some_iff.mp hwinner
  obtain ⟨hltOther, hgetOther⟩ := List.getElem?_eq_some_iff.mp hother
  by_contra hne
  rcases Nat.lt_or_gt_of_ne hne with hbefore | hafter
  · have hnot := hpairs first second hlt hltOther hbefore
    rw [hget, hgetOther] at hnot
    exact hnot ⟨hheld, hotherHeld⟩
  · have hnot := hpairs second first hltOther hlt hafter
    rw [hget, hgetOther] at hnot
    exact hnot ⟨hotherHeld, hheld⟩

/-- Of two creations of one machine at most one returns `Ok`, in every
interleaving.  What belongs to its machine is in place in every state that
follows, as long as no call changes a range or a reservation file that the
other call holds. -/
theorem one_creation_stands
    (cfg : NodeConfig) (shared : Shared cfg) (id : String)
    (first second : VmConfig) (hfirst : first.vmId = id)
    (hsecond : second.vmId = id)
    (firstIpv6 secondIpv6 : Option Ipv6Net)
    (firstHint secondHint : Option UInt32) (events : List Event)
    (hsteps : ∀ event ∈ events, event.isStep = true) :
    (∀ winner other winnerInfo otherInfo,
      created (run step (bothCalled shared
        (.createVm first firstIpv6 firstHint)
        (.createVm second secondIpv6 secondHint)) events) winner =
          some winnerInfo →
      created (run step (bothCalled shared
        (.createVm first firstIpv6 firstHint)
        (.createVm second secondIpv6 secondHint)) events) other =
          some otherInfo → winner = other) ∧
    (Along step (RangesUntouched id) (bothCalled shared
        (.createVm first firstIpv6 firstHint)
        (.createVm second secondIpv6 secondHint)) events →
      ∀ task ∈ (run step (bothCalled shared
        (.createVm first firstIpv6 firstHint)
        (.createVm second secondIpv6 secondHint)) events).tasks, ∀ info,
        task.result = some (.created (.ok info)) →
          ∃ handle now listing purpose,
            info = VmInfo.fromHandle now handle ∧
            (⟨.listRuleset purpose, .ok listing⟩ :
              Σ action, Response action) ∈ task.past ∧
            VmStands id (run step (bothCalled shared
              (.createVm first firstIpv6 firstHint)
              (.createVm second secondIpv6 secondHint)) events).shared
              listing handle) := by
  constructor
  · intro winner other winnerInfo otherInfo hwinner hother
    exact created_once (run_tapOwners hfirst hsecond shared firstIpv6
      secondIpv6 firstHint secondHint hsteps) hwinner hother
  · intro huntouched task htask info hresult
    have hkept := run_creationOwners hfirst hsecond shared firstIpv6
      secondIpv6 firstHint secondHint hsteps huntouched
    obtain ⟨handle, now, hhandle, hinfo⟩ :=
      Task.returns_of_result (hkept.follows task htask) hresult info rfl
    have hin := hkept.hold.locally _ (List.mem_map_of_mem htask)
    obtain ⟨listing, hlisting, hstands⟩ := hin.stands hhandle
    obtain ⟨purpose, hmem⟩ := listed_of_ghost (.inr hlisting)
    exact ⟨handle, now, listing, purpose, hinfo, hmem, hstands⟩

/-- Two creations of `vm-a` on a host with reservations and an IPv6 pool; the
second may ask for a range. -/
def duplicates (secondIpv6 : Option Ipv6Net) : System dualStackHost :=
  bothCalled ⟨.fresh dualStackHost ∅ supervisorRuleset ∅ ∅, false, ∅, noUnits⟩
    (.createVm (smallConfig "vm-a" .none) none none)
    (.createVm (smallConfig "vm-a" .none) secondIpv6 none)

/-- The second creation passes the check for a duplicate first, and fails at
its range after the first one has returned. -/
def refusedRangeRun : List Event :=
  advances 1 2 ++ advances 0 17 ++ advances 1 1

def takenRange : Ipv6Net :=
  ⟨0xFD000000000000000000000000000001, ⟨128, by decide⟩⟩

theorem one_creation_stands_refused_range :
    (created (run step (duplicates (some takenRange)) refusedRangeRun)
      0).isSome = true ∧
    ∀ task ∈ (run step (duplicates (some takenRange))
        refusedRangeRun).tasks, ∀ info,
      task.result = some (.created (.ok info)) →
        ∃ handle now listing purpose,
          info = VmInfo.fromHandle now handle ∧
          (⟨.listRuleset purpose, .ok listing⟩ :
            Σ action, Response action) ∈ task.past ∧
          VmStands "vm-a" (run step (duplicates (some takenRange))
            refusedRangeRun).shared listing handle := by
  constructor
  · decide +kernel
  · apply (one_creation_stands dualStackHost _ "vm-a" _ _ rfl rfl _ _ _ _
      refusedRangeRun (by decide +kernel)).2
    decide +kernel

/-- The second creation writes over the range and the reservations of the
first, fails at the interface and removes them. -/
def duplicateRun : List Event :=
  advances 0 5 ++
    List.replicate 5 (.advance 1 { succeeds with draws := fun _ => 1 }) ++
    advances 0 12 ++ advances 1 4

/-- The call with the number is a creation that has returned `Err`. -/
def creationFailed (system : System cfg) (index : ℕ) : Bool :=
  match system.tasks[index]? with
  | none => false
  | some task =>
      match task.result with
      | some (.created (.error _)) => true
      | _ => false

theorem winner_loses_reservations :
    ¬ ∀ events : List Event, (∀ event ∈ events, event.isStep = true) →
      (created (run step (duplicates none) events) 0).isSome = true →
      creationFailed (run step (duplicates none) events) 1 = true →
        ∃ handle listing, VmStands "vm-a"
          (run step (duplicates none) events).shared listing handle := by
  intro hstands
  obtain ⟨handle, listing, hvm⟩ := hstands duplicateRun (by decide +kernel)
    (by decide +kernel) (by decide +kernel)
  have hmissing : (run step (duplicates none)
      duplicateRun).shared.node.hostsdir.lookup "vm-a" = none := by
    decide +kernel
  rw [hvm.dhcp rfl] at hmissing
  cases hmissing

end AlephCvm.Vm.Concurrent

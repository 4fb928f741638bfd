import AlephCvm.GrpcService
import AlephCvm.NftablesTeardown
import AlephCvm.StateMirror

/-!
# Recovery after a crash

Every operation whose state files are written keeps the node mirrored, with
one exception: a creation that fails after it has taken its offset leaves in
memory what no file knows of.  Hence, along a run whose files are written, a
restart at any moment gives the memory back exactly when no creation failed
that way.
-/

namespace AlephCvm.Vm

open ResultContext StepRuns TableFolds AlephCvm.Tee AlephCvm.Numa
open AlephCvm.Net AlephCvm.Nft AlephCvm.Qemu

variable {cfg : NodeConfig}

/-! ## Creation -/

section Creation

variable {node after : Node cfg} {calls : CreateCalls} {config : VmConfig}
  {requestedIpv6 vmIpv6 : Option Ipv6Net} {offset : UInt8} {launch : Launch}

/-- The file that a creation writes. -/
def createdFile (cfg : NodeConfig) (calls : CreateCalls) (launch : Launch)
    (offset : UInt8) (vmIpv6 : Option Ipv6Net) : PersistedVm :=
  persistedOf (createdHandle cfg launch (allocateVmIp cfg.gatewayIp offset)
    vmIpv6 calls.now) (macForVmIp (allocateVmIp cfg.gatewayIp offset)) []

theorem Created.stateDir_of_save
    (hcreated : Created node calls config requestedIpv6 offset vmIpv6
      launch after) (hsave : calls.save = true) :
    after.stateDir = node.stateDir.insert (stateFile config.vmId)
      (createdFile cfg calls launch offset vmIpv6) := by
  rw [hcreated.stateDir, Node.saveVm, if_pos hsave]
  rfl

theorem Created.file_cases
    (hcreated : Created node calls config requestedIpv6 offset vmIpv6
      launch after) (hsave : calls.save = true) {name : String}
    {persisted : PersistedVm}
    (hlookup : after.stateDir.lookup name = some persisted) :
    (name = stateFile config.vmId ∧
      persisted = createdFile cfg calls launch offset vmIpv6) ∨
    (name ≠ stateFile config.vmId ∧
      node.stateDir.lookup name = some persisted) := by
  rw [hcreated.stateDir_of_save hsave] at hlookup
  exact lookup_insert_iff.mp hlookup

theorem Created.ipv6_lookup
    (hmirrored : Mirrored node)
    (hcreated : Created node calls config requestedIpv6 offset vmIpv6
      launch after) (id : String) :
    after.ipv6Allocations.lookup id =
      if id = config.vmId then vmIpv6
      else node.ipv6Allocations.lookup id := by
  have hnone : node.ipv6Allocations.lookup config.vmId = none := by
    rw [hmirrored.ranges, hcreated.vms_fresh]
    rfl
  rw [hcreated.ipv6Allocations]
  by_cases hid : id = config.vmId
  · subst hid
    rw [if_pos rfl]
    cases vmIpv6 with
    | none => exact hnone
    | some net => exact AList.lookup_insert _
  · rw [if_neg hid]
    exact withRange_lookup_of_ne _ _ (.inl hid)

theorem Created.ranges
    (hmirrored : Mirrored node)
    (hcreated : Created node calls config requestedIpv6 offset vmIpv6
      launch after) (id : String) :
    after.ipv6Allocations.lookup id =
      (after.vms.lookup id).bind VmHandle.ipv6 := by
  rw [Created.ipv6_lookup hmirrored hcreated, hcreated.vms]
  by_cases hid : id = config.vmId
  · subst hid
    rw [if_pos rfl, AList.lookup_insert]
    rfl
  · rw [if_neg hid, AList.lookup_insert_ne hid]
    exact hmirrored.ranges id

theorem Created.inPool
    (hmirrored : Mirrored node)
    (hcreated : Created node calls config requestedIpv6 offset vmIpv6
      launch after) {id : String} {net : Ipv6Net}
    (hlookup : after.ipv6Allocations.lookup id = some net) :
    ∃ pool, cfg.ipv6Pool = some pool ∧
      Ipv6RangeAllocator.contains ⟨pool, vmPrefix, ∅⟩ net = true := by
  rw [Created.ipv6_lookup hmirrored hcreated] at hlookup
  split_ifs at hlookup with hid
  · have hchosen := hcreated.started.chosen
    rw [hlookup] at hchosen
    obtain ⟨pool, hpool, hcontains, _⟩ := Node.chosenIpv6_accepted hchosen
    exact ⟨pool, hpool, hcontains⟩
  · exact hmirrored.inPool id net hlookup

theorem Created.disjoint
    (hmirrored : Mirrored node)
    (hcreated : Created node calls config requestedIpv6 offset vmIpv6
      launch after) {id other : String} {net otherNet : Ipv6Net}
    (hne : id ≠ other)
    (hlookup : after.ipv6Allocations.lookup id = some net)
    (hother : after.ipv6Allocations.lookup other = some otherNet) :
    Ipv6RangeAllocator.rangesMeet net otherNet = false := by
  have hchosen := hcreated.started.chosen
  rw [Created.ipv6_lookup hmirrored hcreated] at hlookup hother
  split_ifs at hlookup hother with hid hotherId hotherId
  · exact (hne (hid.trans hotherId.symm)).elim
  · rw [hlookup] at hchosen
    exact Node.chosenIpv6_disjoint hchosen hother
  · rw [hother] at hchosen
    rw [Ipv6RangeAllocator.rangesMeet_comm]
    exact Node.chosenIpv6_disjoint hchosen hlookup
  · exact hmirrored.disjoint id other net otherNet hne hlookup hother

theorem Created.distinct
    (hmirrored : Mirrored node)
    (hcreated : Created node calls config requestedIpv6 offset vmIpv6
      launch after) {id other : String} {handle otherHandle : VmHandle}
    (hlookup : after.vms.lookup id = some handle)
    (hother : after.vms.lookup other = some otherHandle)
    (hoffset : ipOffset cfg.gatewayIp handle.ip =
      ipOffset cfg.gatewayIp otherHandle.ip) : id = other := by
  have hnew : ∀ id handle, node.vms.lookup id = some handle →
      ipOffset cfg.gatewayIp handle.ip ≠ offset := by
    intro id handle hlookup hoffset
    apply freeOffset_notMem hcreated.started.free
    rw [show node.usedIpOffsets = _ from hmirrored.exact, Node.mem_offsets]
    exact ⟨id, handle, hlookup, hoffset⟩
  rcases hcreated.vms_lookup_iff.mp hlookup with ⟨hid, rfl⟩ | hold
  · rcases hcreated.vms_lookup_iff.mp hother with ⟨hotherId, _⟩ | hotherOld
    · exact hid.trans hotherId.symm
    · rw [ipOffset_createdHandle] at hoffset
      exact (hnew other otherHandle hotherOld hoffset.symm).elim
  · rcases hcreated.vms_lookup_iff.mp hother with ⟨_, rfl⟩ | hotherOld
    · rw [ipOffset_createdHandle] at hoffset
      exact (hnew id handle hold hoffset).elim
    · exact hmirrored.distinct id other handle otherHandle hold hotherOld
        hoffset

/-- A saved creation keeps the node mirrored. -/
theorem Created.mirrored
    (hmirrored : Mirrored node)
    (hcreated : Created node calls config requestedIpv6 offset vmIpv6
      launch after) (hsave : calls.save = true)
    (hid : config.vmId ≠ "") : Mirrored after := by
  have hfresh := hcreated.vms_fresh
  have hnewId : (createdFile cfg calls launch offset
      vmIpv6).config.vmId = config.vmId := hcreated.vmId
  have hnewVm : after.vms.lookup config.vmId = some (runningHandle cfg
      (createdFile cfg calls launch offset vmIpv6)) :=
    hcreated.vms_lookup_iff.mpr (.inl ⟨rfl, rfl⟩)
  have holdVm : ∀ id handle, node.vms.lookup id = some handle →
      after.vms.lookup id = some handle := by
    intro id handle hlookup
    exact hcreated.vms_lookup_iff.mpr (.inr hlookup)
  exact {
    exact := hcreated.offsetsExact hmirrored.exact
    distinct := fun _ _ _ _ => Created.distinct hmirrored hcreated
    named := hcreated.filesNamed hmirrored.named
    nonempty := by
      intro name persisted hlookup
      rcases hcreated.file_cases hsave hlookup with ⟨_, rfl⟩ | ⟨_, hold⟩
      · rw [hnewId]
        exact hid
      · exact hmirrored.nonempty name persisted hold
    registered := by
      intro name persisted hlookup
      rcases hcreated.file_cases hsave hlookup with ⟨_, rfl⟩ | ⟨_, hold⟩
      · rw [hnewId]
        exact hnewVm
      · exact holdVm _ _ (hmirrored.registered name persisted hold)
    saved := by
      intro id handle hlookup
      rw [hcreated.stateDir_of_save hsave]
      by_cases hsame : stateFile id = stateFile config.vmId
      · exact ⟨_, lookup_insert_iff.mpr (.inl ⟨hsame, rfl⟩)⟩
      · have hold : node.vms.lookup id = some handle := by
          rcases hcreated.vms_lookup_iff.mp hlookup with ⟨hid, _⟩ | hold
          · exact (hsame (congrArg stateFile hid)).elim
          · exact hold
        obtain ⟨persisted, hfile⟩ := hmirrored.saved id handle hold
        exact ⟨persisted, lookup_insert_iff.mpr (.inr ⟨hsame, hfile⟩)⟩
    ranges := Created.ranges hmirrored hcreated
    inPool := fun _ _ => Created.inPool hmirrored hcreated
    disjoint := fun _ _ _ _ => Created.disjoint hmirrored hcreated
    keyed := by
      rw [hcreated.portForwards]
      exact hmirrored.keyed
    owned := by
      intro key forward hlookup
      rw [hcreated.portForwards] at hlookup
      obtain ⟨handle, hvm⟩ := hmirrored.owned key forward hlookup
      exact ⟨handle, holdVm _ _ hvm⟩
    listed := by
      intro name persisted hlookup forward
      rw [hcreated.portForwards]
      rcases hcreated.file_cases hsave hlookup with ⟨_, rfl⟩ | ⟨_, hold⟩
      · refine iff_of_false (List.not_mem_nil) ?_
        rintro ⟨hforward, howner⟩
        obtain ⟨handle, hvm⟩ := hmirrored.owned _ forward hforward
        rw [howner, hnewId, hfresh] at hvm
        cases hvm
      · exact hmirrored.listed name persisted hold forward }

end Creation

/-! ## Deletion -/

section Deletion

variable {node after : Node cfg} {calls : DeleteCalls} {id : String}
  {handle : VmHandle}

theorem Deleted.file_lookup_iff
    (hdeleted : Deleted node calls id handle after)
    (hremoved : calls.removeState = true) {name : String}
    {persisted : PersistedVm} :
    after.stateDir.lookup name = some persisted ↔
      name ≠ stateFile id ∧
        node.stateDir.lookup name = some persisted := by
  rw [hdeleted.stateDir, if_pos hremoved]
  exact lookup_erase_iff

theorem Deleted.ipv6_lookup
    (hmirrored : Mirrored node)
    (hvm : node.vms.lookup id = some handle)
    (hdeleted : Deleted node calls id handle after) (other : String) :
    after.ipv6Allocations.lookup other =
      if other = id then none else node.ipv6Allocations.lookup other := by
  have hrange : node.ipv6Allocations.lookup id = handle.ipv6 := by
    rw [hmirrored.ranges, hvm]
    rfl
  rw [hdeleted.ipv6Allocations]
  cases hipv6 : handle.ipv6 with
  | none =>
      simp only [Option.isSome_none, Bool.false_and, Bool.false_eq_true,
        if_false]
      split_ifs with hother
      · rw [hother, hrange, hipv6]
      · rfl
  | some net =>
      obtain ⟨pool, hpool, _⟩ :=
        hmirrored.inPool id net (hrange.trans hipv6)
      simp only [hpool, Option.isSome_some, Bool.and_self, if_true]
      split_ifs with hother
      · subst hother
        exact AList.lookup_erase _ _
      · exact AList.lookup_erase_ne hother

/-- A deletion that removes the file keeps the node mirrored. -/
theorem Deleted.mirrored
    (hmirrored : Mirrored node)
    (hvm : node.vms.lookup id = some handle)
    (hdeleted : Deleted node calls id handle after)
    (hremoved : calls.removeState = true) : Mirrored after := by
  have hforwards : ∀ key forward,
      after.portForwards.lookup key = some forward ↔
        node.portForwards.lookup key = some forward ∧
          forward.vmId ≠ id := by
    intro key forward
    rw [hdeleted.portForwards]
    exact PortForwardState.removeAllForVm_lookup _ _ _ _ _
  have hfileId : ∀ name persisted, name ≠ stateFile id →
      node.stateDir.lookup name = some persisted →
        persisted.config.vmId ≠ id := by
    rintro name persisted hname hlookup rfl
    exact hname (hmirrored.named name persisted hlookup)
  exact {
    exact := by
      apply (hdeleted.offsetsExact_iff hmirrored.exact hvm).mpr
      intro other otherHandle hother hne hoffset
      exact hne (hmirrored.distinct other id otherHandle handle hother hvm
        hoffset)
    distinct := by
      intro first second firstHandle secondHandle hfirst hsecond hoffset
      exact hmirrored.distinct first second firstHandle secondHandle
        (hdeleted.vms_lookup_iff.mp hfirst).2
        (hdeleted.vms_lookup_iff.mp hsecond).2 hoffset
    named := by
      intro name persisted hlookup
      exact hmirrored.named name persisted
        ((hdeleted.file_lookup_iff hremoved).mp hlookup).2
    nonempty := by
      intro name persisted hlookup
      exact hmirrored.nonempty name persisted
        ((hdeleted.file_lookup_iff hremoved).mp hlookup).2
    registered := by
      intro name persisted hlookup
      obtain ⟨hname, hfile⟩ := (hdeleted.file_lookup_iff hremoved).mp hlookup
      exact hdeleted.vms_lookup_iff.mpr ⟨hfileId name persisted hname hfile,
        hmirrored.registered name persisted hfile⟩
    saved := by
      intro other otherHandle hlookup
      obtain ⟨hne, hother⟩ := hdeleted.vms_lookup_iff.mp hlookup
      obtain ⟨persisted, hfile⟩ := hmirrored.saved other otherHandle hother
      exact ⟨persisted, (hdeleted.file_lookup_iff hremoved).mpr
        ⟨fun hsame => hne (stateFile_injective hsame), hfile⟩⟩
    ranges := by
      intro other
      rw [Deleted.ipv6_lookup hmirrored hvm hdeleted, hdeleted.vms]
      split_ifs with hother
      · subst hother
        rw [AList.lookup_erase]
        rfl
      · rw [AList.lookup_erase_ne hother]
        exact hmirrored.ranges other
    inPool := by
      intro other net hlookup
      rw [Deleted.ipv6_lookup hmirrored hvm hdeleted] at hlookup
      split_ifs at hlookup
      exact hmirrored.inPool other net hlookup
    disjoint := by
      intro first second net otherNet hne hfirst hsecond
      rw [Deleted.ipv6_lookup hmirrored hvm hdeleted] at hfirst hsecond
      split_ifs at hfirst hsecond
      exact hmirrored.disjoint first second net otherNet hne hfirst hsecond
    keyed := by
      intro key forward hlookup
      exact hmirrored.keyed key forward ((hforwards key forward).mp hlookup).1
    owned := by
      intro key forward hlookup
      obtain ⟨hold, hne⟩ := (hforwards key forward).mp hlookup
      obtain ⟨owner, howner⟩ := hmirrored.owned key forward hold
      exact ⟨owner, hdeleted.vms_lookup_iff.mpr ⟨hne, howner⟩⟩
    listed := by
      intro name persisted hlookup forward
      obtain ⟨hname, hfile⟩ := (hdeleted.file_lookup_iff hremoved).mp hlookup
      rw [hmirrored.listed name persisted hfile forward, hforwards]
      constructor
      · rintro ⟨hold, howner⟩
        refine ⟨⟨hold, ?_⟩, howner⟩
        rw [howner]
        exact hfileId name persisted hname hfile
      · rintro ⟨⟨hold, _⟩, howner⟩
        exact ⟨hold, howner⟩ }

end Deletion

/-! ## Port forwards -/

section Forwards

variable {node after : Node cfg} {calls : ForwardCalls} {vmId : String}

/-- The state file of one machine is rewritten after a change to forwards of
that machine. -/
theorem Mirrored.saveForwards
    (hmirrored : Mirrored node) {forwards : PortForwardState}
    {persisted : PersistedVm} (order : IterationOrder)
    (hfile : node.stateDir.lookup (stateFile vmId) = some persisted)
    (hkeyed : ∀ key forward, forwards.lookup key = some forward →
      forward.key = key)
    (howned : ∀ key forward, forwards.lookup key = some forward →
      ∃ handle, node.vms.lookup forward.vmId = some handle)
    (hothers : ∀ key forward, forward.vmId ≠ vmId →
      (forwards.lookup key = some forward ↔
        node.portForwards.lookup key = some forward))
    (hsame : SameMachines node after)
    (hforwards : after.portForwards = forwards)
    (hdir : after.stateDir = node.stateDir.insert (stateFile vmId)
      { persisted with
        portForwards := PortForwardState.listForVm forwards order vmId }) :
    Mirrored after := by
  have hid : vmId = persisted.config.vmId :=
    stateFile_injective (hmirrored.named _ persisted hfile)
  have hcases : ∀ name found, after.stateDir.lookup name = some found →
      (name = stateFile vmId ∧ found = { persisted with
        portForwards := PortForwardState.listForVm forwards order vmId }) ∨
      (name ≠ stateFile vmId ∧
        node.stateDir.lookup name = some found) := by
    intro name found hlookup
    rw [hdir] at hlookup
    exact lookup_insert_iff.mp hlookup
  obtain ⟨hexact, hdistinct, hnamed, hnonempty, hregistered, hsaved,
    hranges, hinPool, hdisjoint, _, _, hlisted⟩ := hmirrored
  refine ⟨hsame.offsetsExact_iff.mpr hexact, ?_, ?_, ?_, ?_, ?_, ?_, ?_, ?_,
    ?_, ?_, ?_⟩
  · rw [hsame.vms]
    exact hdistinct
  · intro name found hlookup
    rcases hcases name found hlookup with ⟨rfl, rfl⟩ | ⟨_, hold⟩
    · rw [hid]
    · exact hnamed name found hold
  · intro name found hlookup
    rcases hcases name found hlookup with ⟨_, rfl⟩ | ⟨_, hold⟩
    · exact hnonempty _ persisted hfile
    · exact hnonempty name found hold
  · intro name found hlookup
    rw [hsame.vms]
    rcases hcases name found hlookup with ⟨_, rfl⟩ | ⟨_, hold⟩
    · exact hregistered _ persisted hfile
    · exact hregistered name found hold
  · intro id handle hlookup
    rw [hsame.vms] at hlookup
    rw [hdir]
    by_cases hname : stateFile id = stateFile vmId
    · exact ⟨_, lookup_insert_iff.mpr (.inl ⟨hname, rfl⟩)⟩
    · obtain ⟨found, hfound⟩ := hsaved id handle hlookup
      exact ⟨found, lookup_insert_iff.mpr (.inr ⟨hname, hfound⟩)⟩
  · rw [hsame.vms, hsame.ipv6Allocations]
    exact hranges
  · rw [hsame.ipv6Allocations]
    exact hinPool
  · rw [hsame.ipv6Allocations]
    exact hdisjoint
  · rw [hforwards]
    exact hkeyed
  · rw [hforwards, hsame.vms]
    exact howned
  · intro name found hlookup forward
    rw [hforwards]
    rcases hcases name found hlookup with ⟨_, rfl⟩ | ⟨hname, hold⟩
    · rw [PortForwardState.mem_listForVm, hid]
      refine and_congr_left fun _ => ⟨?_, fun h => ⟨_, h⟩⟩
      rintro ⟨key, hkey⟩
      rw [hkeyed key forward hkey]
      exact hkey
    · rw [hlisted name found hold forward]
      refine and_congr_left fun howner => (hothers _ _ ?_).symm
      rintro rfl
      exact hname ((hnamed name found hold).trans
        (congrArg stateFile howner.symm))

/-- With its machine registered, a save finds the file. -/
theorem ForwardsSaved.file
    {changed : Node cfg} (hsaved : ForwardsSaved changed calls vmId after)
    (hsave : calls.save = true) {persisted : PersistedVm}
    (hfile : changed.stateDir.lookup (stateFile vmId) = some persisted) :
    SameMachines changed after ∧
      after.portForwards = changed.portForwards ∧
      after.stateDir = changed.stateDir.insert (stateFile vmId)
        { persisted with
          portForwards := PortForwardState.listForVm changed.portForwards
            calls.order vmId } := by
  cases hsaved with
  | unsaved hunsaved =>
      rcases hunsaved with hnot | hnone
      · rw [hsave] at hnot
        cases hnot
      · rw [hfile] at hnone
        cases hnone
  | saved found hfound =>
      rw [hfile, Option.some.injEq] at hfound
      subst hfound
      exact ⟨⟨rfl, rfl, rfl⟩, rfl, rfl⟩

theorem AddForwardEffect.mirrored
    (hmirrored : Mirrored node)
    (heffect : AddForwardEffect node calls vmId after)
    (hsave : calls.save = true) : Mirrored after := by
  cases heffect with
  | refused => exact hmirrored
  | rolledBack forward hfree =>
      refine hmirrored.congr ⟨fun _ => rfl, rfl, fun _ => rfl, ?_⟩ rfl
      intro key
      by_cases hkey : key = forward.key
      · subst hkey
        rw [hfree]
        exact AList.lookup_erase _ _
      · exact (AList.lookup_erase_ne hkey).trans
          (AList.lookup_insert_ne hkey)
  | added forward handle ruleset _ hvm howner hfree hsaved =>
      obtain ⟨persisted, hfile⟩ := hmirrored.saved vmId handle hvm
      obtain ⟨hsame, hforwards, hdir⟩ := hsaved.file hsave hfile
      have hcases : ∀ key found,
          (PortForwardState.add node.portForwards forward).lookup key =
            some found →
          (key = forward.key ∧ found = forward) ∨
            node.portForwards.lookup key = some found := by
        intro key found hlookup
        rw [PortForwardState.add, lookup_insert_iff] at hlookup
        exact hlookup.imp_right fun h => h.2
      refine hmirrored.saveForwards calls.order hfile ?_ ?_ ?_
        ⟨hsame.vms, hsame.usedIpOffsets, hsame.ipv6Allocations⟩ hforwards
        hdir
      · intro key found hlookup
        rcases hcases key found hlookup with ⟨rfl, rfl⟩ | hold
        · rfl
        · exact hmirrored.keyed key found hold
      · intro key found hlookup
        rcases hcases key found hlookup with ⟨_, rfl⟩ | hold
        · rw [howner]
          exact ⟨handle, hvm⟩
        · exact hmirrored.owned key found hold
      · intro key found hne
        constructor
        · intro hlookup
          rcases hcases key found hlookup with ⟨_, rfl⟩ | hold
          · exact (hne howner).elim
          · exact hold
        · intro hlookup
          have hkey : key ≠ forward.key := by
            rintro rfl
            rw [hfree] at hlookup
            cases hlookup
          exact lookup_insert_iff.mpr (.inr ⟨hkey, hlookup⟩)

theorem RemoveForwardEffect.mirrored
    (hmirrored : Mirrored node)
    (heffect : RemoveForwardEffect node calls after)
    (hremoves : ∀ key : UInt16 × Protocol, ∃ next,
      cfg.nftables.removePortForward calls.nft node.ruleset key.1 key.2 =
        .ok next)
    (hsave : calls.save = true) : Mirrored after := by
  cases heffect with
  | refused => exact hmirrored
  | unsaved key hfailed =>
      obtain ⟨next, hok⟩ := hremoves key
      exact (hfailed next hok).elim
  | removed removedKey forward ruleset _ hfound hsaved =>
      obtain ⟨handle, hvm⟩ := hmirrored.owned removedKey forward hfound
      obtain ⟨persisted, hfile⟩ := hmirrored.saved _ handle hvm
      obtain ⟨hsame, hforwards, hdir⟩ := hsaved.file hsave hfile
      have hkept : ∀ key found,
          (node.portForwards.erase removedKey).lookup key = some found →
            node.portForwards.lookup key = some found := by
        intro key found hlookup
        exact (lookup_erase_iff.mp hlookup).2
      refine hmirrored.saveForwards calls.order hfile ?_ ?_ ?_
        ⟨hsame.vms, hsame.usedIpOffsets, hsame.ipv6Allocations⟩ hforwards
        hdir
      · intro key found hlookup
        exact hmirrored.keyed key found (hkept key found hlookup)
      · intro key found hlookup
        exact hmirrored.owned key found (hkept key found hlookup)
      · intro key found hne
        refine ⟨hkept key found, fun hlookup => ?_⟩
        have hkey : key ≠ removedKey := by
          rintro rfl
          rw [hfound, Option.some.injEq] at hlookup
          exact hne (hlookup ▸ rfl)
        exact lookup_erase_iff.mpr ⟨hkey, hlookup⟩

end Forwards

/-! ## One operation -/

/-- What the operation is promised: the state files it writes or removes are
written and removed, a machine has an accepted name, the firewall can be
changed, and a restart finds every file and every unit. -/
def ManagerOp.Reliable : ManagerOp → Prop
  | .createVm calls config _ _ =>
      Grpc.validateVmId config.vmId = .ok () ∧ calls.save = true
  | .deleteVm calls _ => calls.removeState = true
  | .addPortForward calls _ _ _ _ => calls.save = true
  | .removePortForward calls _ _ => calls.nft.Succeed ∧ calls.save = true
  | .restart calls => calls.Faithful

/-- A creation that takes an offset completes. -/
def Node.CreationCompletes (node : Node cfg) : ManagerOp → Prop
  | .createVm calls config requestedIpv6 numaHint =>
      config.vmId ∈ node.vms ∨ freeOffset node.usedIpOffsets = none ∨
        node.Completes calls config requestedIpv6 numaHint
  | _ => True

theorem ne_empty_of_validateVmId {vmId : String}
    (hvalid : Grpc.validateVmId vmId = .ok ()) : vmId ≠ "" := by
  rintro rfl
  exact (Grpc.validateVmId_chars hvalid).1 rfl

/-- The recovery of a host that kept its files, in the stored order. -/
def undisturbedRestart (ruleset : Ruleset) (nft : NftCalls) :
    RestartCalls where
  taps := ∅
  ruleset := ruleset
  hostsdir := ∅
  readDir := .ok ()
  order := .stored
  readable := fun _ => true
  unitActive := fun _ => true
  nftSetup := fun _ => nft
  nftForward := fun _ _ => nft

theorem undisturbedRestart_faithful (ruleset : Ruleset) (nft : NftCalls) :
    (undisturbedRestart ruleset nft).Faithful :=
  ⟨rfl, fun _ => rfl, fun _ => rfl⟩

/-- An offset that no file accounts for is lost with the memory. -/
theorem Mirrored.not_recoversSame_of_taken
    {node after : Node cfg} (hmirrored : Mirrored node) {offset : UInt8}
    (hfree : freeOffset node.usedIpOffsets = some offset)
    (hsame : SameRegistry (node.takeOffset offset) after) :
    ¬ after.RecoversSame := by
  intro hrecovers
  have hfaithful := undisturbedRestart_faithful node.ruleset nftSucceeds
  have hafter := (hrecovers _ hfaithful).usedIpOffsets
  have hnode := (hmirrored.recoversSame _ hfaithful).usedIpOffsets
  have hrestart : ∀ calls, after.restart calls = node.restart calls := by
    intro calls
    unfold Node.restart
    rw [hsame.stateDir]
    rfl
  rw [hrestart, hnode, hsame.usedIpOffsets] at hafter
  apply freeOffset_notMem hfree
  rw [hafter]
  exact Finset.mem_insert_self _ _

/-- After a reliable operation the node is mirrored, unless the operation is
a creation that failed with its offset taken. -/
theorem Mirrored.step
    {node : Node cfg} (hmirrored : Mirrored node) {op : ManagerOp}
    (hreliable : op.Reliable) :
    (Mirrored (node.step op) ∧ node.CreationCompletes op) ∨
      (¬ (node.step op).RecoversSame ∧ ¬ node.CreationCompletes op) := by
  have heffect := node.step_effect op
  generalize node.step op = after at heffect
  cases heffect with
  | createVm heffect =>
      cases heffect with
      | refused failure hrefused =>
          exact .inl ⟨hmirrored, or_assoc.mp (.inl hrefused)⟩
      | failed failure offset after hfresh hfree hfailed hsame =>
          exact .inr ⟨hmirrored.not_recoversSame_of_taken hfree hsame,
            Node.not_refused_or_completes hfresh hfree hfailed⟩
      | created info offset vmIpv6 launch after hcompletes hcreated =>
          obtain ⟨hvalid, hsave⟩ := hreliable
          exact .inl ⟨Created.mirrored hmirrored hcreated hsave
            (ne_empty_of_validateVmId hvalid), .inr (.inr hcompletes)⟩
  | notFound hnone => exact .inl ⟨hmirrored, trivial⟩
  | deleted hvm hdeleted =>
      exact .inl ⟨Deleted.mirrored hmirrored hvm hdeleted hreliable, trivial⟩
  | addPortForward heffect =>
      exact .inl ⟨AddForwardEffect.mirrored hmirrored heffect hreliable,
        trivial⟩
  | removePortForward heffect =>
      obtain ⟨hnft, hsave⟩ := hreliable
      refine .inl ⟨RemoveForwardEffect.mirrored hmirrored heffect ?_ hsave,
        trivial⟩
      intro key
      exact removePortForward_succeeds cfg.nftables hnft node.ruleset key.1
        key.2
  | restart calls =>
      exact .inl ⟨hmirrored.congr (hmirrored.recoversSame calls hreliable)
        (Node.restart_stateDir node calls), trivial⟩

theorem Mirrored.step_recoversSame_iff
    {node : Node cfg} (hmirrored : Mirrored node) {op : ManagerOp}
    (hreliable : op.Reliable) :
    (node.step op).RecoversSame ↔ node.CreationCompletes op := by
  rcases hmirrored.step hreliable with
    ⟨hafter, hcompletes⟩ | ⟨hlost, hfails⟩
  · exact iff_of_true hafter.recoversSame hcompletes
  · exact iff_of_false hlost hfails

theorem Mirrored.step_of_completes
    {node : Node cfg} (hmirrored : Mirrored node) {op : ManagerOp}
    (hreliable : op.Reliable) (hcompletes : node.CreationCompletes op) :
    Mirrored (node.step op) := by
  rcases hmirrored.step hreliable with ⟨hafter, _⟩ | ⟨_, hfails⟩
  · exact hafter
  · exact (hfails hcompletes).elim

/-! ## Runs -/

/-- In every run of reliable operations of a manager that starts empty, a
restart after any operation gives the memory back if and only if no creation
fails once it has taken its offset. -/
theorem restart_recovers_memory_iff
    (cfg : NodeConfig) (taps : Finset String) (ruleset : Ruleset)
    (hostsdir : AList fun _ : String => String) (ops : List ManagerOp)
    (hreliable : ∀ op ∈ ops, op.Reliable) :
    Along Node.step (fun node op => (node.step op).RecoversSame)
        (.fresh cfg taps ruleset hostsdir ∅) ops ↔
      Along Node.step Node.CreationCompletes
        (.fresh cfg taps ruleset hostsdir ∅) ops := by
  refine along_iff_of_invariant_of_mem ?_ ?_
    (Mirrored.fresh cfg taps ruleset hostsdir)
  · intro node op hop hmirrored
    exact hmirrored.step_recoversSame_iff (hreliable op hop)
  · intro node op hop hmirrored
    exact hmirrored.step_of_completes (hreliable op hop)

/-- One of each operation, on the small host. -/
def smallRun : List ManagerOp :=
  [.createVm createSucceeds (smallConfig "vm-a" .none) none none,
    .addPortForward ⟨nftSucceeds, .stored, true⟩ "vm-a" 0 22 .tcp,
    .restart (undisturbedRestart supervisorRuleset nftSucceeds),
    .removePortForward ⟨nftSucceeds, .stored, true⟩ 10000 .tcp,
    .deleteVm ⟨.stored, fun _ => nftSucceeds, cleanupSucceeds, true⟩ "vm-a"]

theorem smallRun_reliable : ∀ op ∈ smallRun, op.Reliable := by
  simp only [smallRun, List.forall_mem_cons]
  exact ⟨⟨by decide, rfl⟩, rfl, undisturbedRestart_faithful _ _,
    ⟨⟨fun _ => rfl, rfl⟩, rfl⟩, rfl, List.forall_mem_nil _⟩

theorem restart_recovers_memory_small :
    Along Node.step (fun node op => (node.step op).RecoversSame)
      smallNode smallRun := by
  refine (restart_recovers_memory_iff smallHost ∅ supervisorRuleset ∅
    smallRun smallRun_reliable).mpr
      ⟨.inr (.inr ?_), trivial, trivial, trivial, trivial, trivial⟩
  exact {
    range := rfl
    dhcp := fun _ => rfl
    dhcpv6 := fun _ _ => rfl
    tapFree := by decide +kernel
    tapAdded := rfl
    tapUp := rfl
    tapAttached := rfl
    address := fun _ => rfl
    firewall := by decide +kernel
    launch := by decide +kernel
    drives := by decide +kernel
    spawned := rfl }

/-- A machine for a TEE without a backend is refused although every external
step would succeed; the offset it took is not in memory after a restart. -/
theorem restart_forgets_leaked_offset :
    (∀ op ∈ [ManagerOp.createVm createSucceeds (smallConfig "vm-a" .tdx)
      none none], op.Reliable) ∧
    ¬ Along Node.step (fun node op => (node.step op).RecoversSame)
      smallNode
      [.createVm createSucceeds (smallConfig "vm-a" .tdx) none none] := by
  constructor
  · intro op hop
    rw [List.mem_singleton] at hop
    subst hop
    exact ⟨by decide, rfl⟩
  · intro h
    have hused := (h.1 _ (undisturbedRestart_faithful supervisorRuleset
      nftSucceeds)).usedIpOffsets
    revert hused
    decide +kernel

end AlephCvm.Vm

import AlephCvm.VmManager

/-!
# The phases of a creation

`createVm` acquires its resources in phases: an address offset, an IPv6
range, the reservation files, the network interface with its firewall chains,
an NDP range, and a NUMA placement.  This file says what each phase leaves
behind, once for its success and once for each of its failures, as a relation
between the node before the phase and its result.  `CreateOutcome` puts the
phases together: it lists every exit of the whole call.
-/

namespace AlephCvm.Vm

open ResultContext AlephCvm.Tee AlephCvm.Numa AlephCvm.Net AlephCvm.Nft
open AlephCvm.Qemu

variable {cfg : NodeConfig}

/-- The two nodes agree on the machines, the offsets, the forwards and the
state directory. -/
structure SameRegistry (before after : Node cfg) : Prop where
  vms : after.vms = before.vms
  usedIpOffsets : after.usedIpOffsets = before.usedIpOffsets
  portForwards : after.portForwards = before.portForwards
  stateDir : after.stateDir = before.stateDir

theorem SameRegistry.refl (node : Node cfg) : SameRegistry node node :=
  ⟨rfl, rfl, rfl, rfl⟩

theorem SameRegistry.trans {first second third : Node cfg}
    (hfirst : SameRegistry first second)
    (hsecond : SameRegistry second third) : SameRegistry first third :=
  ⟨hsecond.vms.trans hfirst.vms,
    hsecond.usedIpOffsets.trans hfirst.usedIpOffsets,
    hsecond.portForwards.trans hfirst.portForwards,
    hsecond.stateDir.trans hfirst.stateDir⟩

/-- The two nodes agree on interfaces, firewall, NDP ranges and placement. -/
structure SameHost (before after : Node cfg) : Prop where
  taps : after.taps = before.taps
  ruleset : after.ruleset = before.ruleset
  ndpRanges : after.ndpRanges = before.ndpRanges
  numa : after.numa = before.numa

theorem SameHost.refl (node : Node cfg) : SameHost node node :=
  ⟨rfl, rfl, rfl, rfl⟩

theorem SameHost.trans {first second third : Node cfg}
    (hfirst : SameHost first second) (hsecond : SameHost second third) :
    SameHost first third :=
  ⟨hsecond.taps.trans hfirst.taps, hsecond.ruleset.trans hfirst.ruleset,
    hsecond.ndpRanges.trans hfirst.ndpRanges,
    hsecond.numa.trans hfirst.numa⟩

/-! ## The IPv6 range -/

/-- The range that the allocator would hand out. -/
def Node.chosenIpv6 (node : Node cfg) (draws : ℕ → ℕ)
    (requested : Option Ipv6Net) : Except Failure (Option Ipv6Net) :=
  match node.ipv6Allocator with
  | none => .ok none
  | some alloc =>
      match alloc.chooseNet draws requested with
      | .error failure => .error failure
      | .ok net => .ok (some net)

def withRange (allocations : AList fun _ : String => Ipv6Net)
    (vmId : String) :
    Option Ipv6Net → AList fun _ : String => Ipv6Net
  | none => allocations
  | some net => allocations.insert vmId net

def Node.withIpv6 (node : Node cfg) (vmId : String)
    (vmIpv6 : Option Ipv6Net) : Node cfg :=
  { node with
    ipv6Allocations := withRange node.ipv6Allocations vmId vmIpv6 }

theorem Node.allocateIpv6_eq (node : Node cfg) (draws : ℕ → ℕ)
    (vmId : String) (requested : Option Ipv6Net) :
    node.allocateIpv6 draws vmId requested =
      match node.chosenIpv6 draws requested with
      | .error failure => .error failure
      | .ok vmIpv6 => .ok (vmIpv6, node.withIpv6 vmId vmIpv6) := by
  unfold Node.allocateIpv6 Node.chosenIpv6 Node.ipv6Allocator
  cases cfg.ipv6Pool with
  | none => rfl
  | some pool =>
      simp only [Option.map_some, Ipv6RangeAllocator.allocate]
      cases Ipv6RangeAllocator.chooseNet ⟨pool, vmPrefix, node.ipv6Allocations⟩
          draws requested with
      | error failure => rfl
      | ok net => rfl

theorem Node.chosenIpv6_isSome
    {node : Node cfg} {draws : ℕ → ℕ} {requested : Option Ipv6Net}
    {vmIpv6 : Option Ipv6Net}
    (hok : node.chosenIpv6 draws requested = .ok vmIpv6) :
    vmIpv6.isSome = cfg.ipv6Pool.isSome := by
  unfold Node.chosenIpv6 Node.ipv6Allocator at hok
  cases hpool : cfg.ipv6Pool with
  | none =>
      simp only [hpool, Option.map_none, Except.ok.injEq] at hok
      rw [← hok]
  | some pool =>
      simp only [hpool, Option.map_some] at hok
      cases hchoose : Ipv6RangeAllocator.chooseNet
          ⟨pool, vmPrefix, node.ipv6Allocations⟩ draws requested with
      | error failure => simp [hchoose] at hok
      | ok net =>
          simp only [hchoose, Except.ok.injEq] at hok
          rw [← hok]
          rfl

theorem Node.chosenIpv6_chooseNet
    {node : Node cfg} {draws : ℕ → ℕ} {requested : Option Ipv6Net}
    {net : Ipv6Net}
    (hok : node.chosenIpv6 draws requested = .ok (some net)) :
    ∃ pool, cfg.ipv6Pool = some pool ∧
      Ipv6RangeAllocator.chooseNet ⟨pool, vmPrefix, node.ipv6Allocations⟩
        draws requested = .ok net := by
  unfold Node.chosenIpv6 Node.ipv6Allocator at hok
  cases hpool : cfg.ipv6Pool with
  | none => simp [hpool] at hok
  | some pool =>
      simp only [hpool, Option.map_some] at hok
      cases hchoose : Ipv6RangeAllocator.chooseNet
          ⟨pool, vmPrefix, node.ipv6Allocations⟩ draws requested with
      | error failure => simp [hchoose] at hok
      | ok chosen =>
          simp only [hchoose, Except.ok.injEq, Option.some.injEq] at hok
          subst hok
          exact ⟨pool, rfl, hchoose⟩

theorem Node.chosenIpv6_accepted
    {node : Node cfg} {draws : ℕ → ℕ} {requested : Option Ipv6Net}
    {net : Ipv6Net}
    (hok : node.chosenIpv6 draws requested = .ok (some net)) :
    ∃ pool, cfg.ipv6Pool = some pool ∧
      Ipv6RangeAllocator.contains ⟨pool, vmPrefix, node.ipv6Allocations⟩ net =
        true ∧
      Ipv6RangeAllocator.overlaps ⟨pool, vmPrefix, node.ipv6Allocations⟩ net =
        false := by
  obtain ⟨pool, hpool, hchoose⟩ := Node.chosenIpv6_chooseNet hok
  exact ⟨pool, hpool, Ipv6RangeAllocator.chooseNet_accepted _ hchoose⟩

/-- A chosen range meets no range that is handed out. -/
theorem Node.chosenIpv6_disjoint
    {node : Node cfg} {draws : ℕ → ℕ} {requested : Option Ipv6Net}
    {net : Ipv6Net}
    (hok : node.chosenIpv6 draws requested = .ok (some net))
    {id : String} {existing : Ipv6Net}
    (hlookup : node.ipv6Allocations.lookup id = some existing) :
    Ipv6RangeAllocator.rangesMeet net existing = false := by
  obtain ⟨pool, _, _, hfree⟩ := Node.chosenIpv6_accepted hok
  rw [Ipv6RangeAllocator.overlaps_eq_false_iff] at hfree
  exact hfree id existing hlookup

theorem withRange_lookup_of_ne
    (allocations : AList fun _ : String => Ipv6Net) {vmId id : String}
    (vmIpv6 : Option Ipv6Net) (hne : id ≠ vmId ∨ vmIpv6.isSome = false) :
    (withRange allocations vmId vmIpv6).lookup id =
      allocations.lookup id := by
  cases vmIpv6 with
  | none => rfl
  | some net =>
      have hid : id ≠ vmId := by simpa using hne
      exact AList.lookup_insert_ne hid

theorem Node.releaseIpv6_sameRegistry (node : Node cfg) (vmId : String) :
    SameRegistry node (node.releaseIpv6 vmId) := by
  unfold Node.releaseIpv6
  cases node.ipv6Allocator with
  | none => exact .refl node
  | some alloc => exact ⟨rfl, rfl, rfl, rfl⟩

theorem Node.releaseIpv6_sameHost (node : Node cfg) (vmId : String) :
    SameHost node (node.releaseIpv6 vmId) := by
  unfold Node.releaseIpv6
  cases node.ipv6Allocator with
  | none => exact .refl node
  | some alloc => exact ⟨rfl, rfl, rfl, rfl⟩

theorem Node.releaseIpv6_hostsdir (node : Node cfg) (vmId : String) :
    (node.releaseIpv6 vmId).hostsdir = node.hostsdir := by
  unfold Node.releaseIpv6
  cases node.ipv6Allocator <;> rfl

theorem Node.releaseIpv6_ranges (node : Node cfg) (vmId : String) :
    (node.releaseIpv6 vmId).ipv6Allocations =
      if cfg.ipv6Pool.isSome then node.ipv6Allocations.erase vmId
      else node.ipv6Allocations := by
  unfold Node.releaseIpv6 Node.ipv6Allocator
  cases cfg.ipv6Pool <;> rfl

theorem Node.releaseIpv6_allocations
    (node : Node cfg) (vmId : String) (hpool : cfg.ipv6Pool.isSome) :
    (node.releaseIpv6 vmId).ipv6Allocations =
      node.ipv6Allocations.erase vmId := by
  rw [Node.releaseIpv6_ranges, if_pos hpool]

/-! ## Reservation files -/

/-- The files that a creation of the machine may write. -/
def reservedName (cfg : NodeConfig) (vmId : String) (hasIpv6 : Bool)
    (name : String) : Bool :=
  cfg.dhcpHostsdir.isSome &&
    (name == vmId || (hasIpv6 && name == dhcpv6File vmId))

theorem writeFile_lookup_of_ne
    {outcome : WriteOutcome} {files : AList fun _ : String => String}
    {name other : String} (content : String) (hne : other ≠ name) :
    (writeFile outcome files name content).2.lookup other =
      files.lookup other := by
  cases outcome with
  | written => exact AList.lookup_insert_ne hne
  | refused message => rfl
  | cut length message => exact AList.lookup_insert_ne hne

/-- What a write leaves under its name depends on what was there only. -/
theorem writeFile_lookup_congr
    (outcome : WriteOutcome)
    {first second : AList fun _ : String => String} {name : String}
    (content : String) (hsame : first.lookup name = second.lookup name) :
    (writeFile outcome first name content).2.lookup name =
      (writeFile outcome second name content).2.lookup name := by
  cases outcome with
  | written => simp [writeFile]
  | refused message => exact hsame
  | cut length message => simp [writeFile]

theorem Node.removeReservations_sameRegistry
    (node : Node cfg) (calls : CleanupCalls) (vmId : String)
    (hasIpv6 : Bool) :
    SameRegistry node (node.removeReservations calls vmId hasIpv6) := by
  unfold Node.removeReservations
  cases cfg.dhcpHostsdir with
  | none => exact .refl node
  | some hostsdir => exact ⟨rfl, rfl, rfl, rfl⟩

theorem Node.removeReservations_sameHost
    (node : Node cfg) (calls : CleanupCalls) (vmId : String)
    (hasIpv6 : Bool) :
    SameHost node (node.removeReservations calls vmId hasIpv6) := by
  unfold Node.removeReservations
  cases cfg.dhcpHostsdir with
  | none => exact .refl node
  | some hostsdir => exact ⟨rfl, rfl, rfl, rfl⟩

theorem Node.removeReservations_ipv6Allocations
    (node : Node cfg) (calls : CleanupCalls) (vmId : String)
    (hasIpv6 : Bool) :
    (node.removeReservations calls vmId hasIpv6).ipv6Allocations =
      node.ipv6Allocations := by
  unfold Node.removeReservations
  cases cfg.dhcpHostsdir <;> rfl

/-- When the removals succeed, exactly the machine's files are gone. -/
theorem Node.removeReservations_lookup
    (node : Node cfg) {calls : CleanupCalls} (hcalls : calls.Succeed)
    (vmId : String) (hasIpv6 : Bool) (name : String) :
    (node.removeReservations calls vmId hasIpv6).hostsdir.lookup name =
      if reservedName cfg vmId hasIpv6 name then none
      else node.hostsdir.lookup name := by
  unfold Node.removeReservations reservedName
  cases cfg.dhcpHostsdir with
  | none => simp
  | some hostsdir =>
      simp only [removeFile, hcalls.2.1, hcalls.2.2.1, if_true,
        Option.isSome_some, Bool.true_and]
      by_cases hname : name = vmId
      · subst hname
        cases hasIpv6 with
        | false => simp
        | true =>
            simp [AList.lookup_erase_ne (dhcpv6File_ne name).symm]
      · cases hasIpv6 with
        | false => simp [AList.lookup_erase_ne hname, hname]
        | true =>
            by_cases hv6 : name = dhcpv6File vmId
            · subst hv6
              simp
            · simp [AList.lookup_erase_ne hv6, AList.lookup_erase_ne hname,
                hname, hv6]

theorem Node.cleanupReservations_sameRegistry
    (node : Node cfg) (calls : CleanupCalls) (vmId : String)
    (hasIpv6 : Bool) :
    SameRegistry node (node.cleanupReservations calls vmId hasIpv6) := by
  have hremove :=
    node.removeReservations_sameRegistry calls vmId hasIpv6
  unfold Node.cleanupReservations
  cases hasIpv6 with
  | false => exact hremove
  | true => exact hremove.trans (Node.releaseIpv6_sameRegistry _ vmId)

theorem Node.cleanupReservations_sameHost
    (node : Node cfg) (calls : CleanupCalls) (vmId : String)
    (hasIpv6 : Bool) :
    SameHost node (node.cleanupReservations calls vmId hasIpv6) := by
  have hremove := node.removeReservations_sameHost calls vmId hasIpv6
  unfold Node.cleanupReservations
  cases hasIpv6 with
  | false => exact hremove
  | true => exact hremove.trans (Node.releaseIpv6_sameHost _ vmId)

theorem Node.cleanupReservations_lookup
    (node : Node cfg) {calls : CleanupCalls} (hcalls : calls.Succeed)
    (vmId : String) (hasIpv6 : Bool) (name : String) :
    (node.cleanupReservations calls vmId hasIpv6).hostsdir.lookup name =
      if reservedName cfg vmId hasIpv6 name then none
      else node.hostsdir.lookup name := by
  rw [← node.removeReservations_lookup hcalls]
  unfold Node.cleanupReservations
  cases hasIpv6 with
  | false => rfl
  | true =>
      simp only [if_true]
      rw [Node.releaseIpv6_hostsdir]

theorem Node.cleanupReservations_ipv6_lookup
    (node : Node cfg) (calls : CleanupCalls) (vmId : String)
    {hasIpv6 : Bool} (hpool : hasIpv6 = true → cfg.ipv6Pool.isSome)
    (id : String) :
    (node.cleanupReservations calls vmId hasIpv6).ipv6Allocations.lookup
        id =
      if hasIpv6 && id == vmId then none
      else node.ipv6Allocations.lookup id := by
  unfold Node.cleanupReservations
  cases hasIpv6 with
  | false => simp [Node.removeReservations_ipv6Allocations]
  | true =>
      simp only [if_true, Bool.true_and]
      rw [Node.releaseIpv6_allocations _ _ (hpool rfl),
        Node.removeReservations_ipv6Allocations]
      by_cases hid : id = vmId
      · subst hid
        simp
      · simp [AList.lookup_erase_ne hid, hid]

/-- The ways in which the reservation phase ends. -/
inductive ReservationResult (node : Node cfg) (calls : CreateCalls)
    (vmId : String) (vmIp : Ipv4Addr) (vmIpv6 : Option Ipv6Net) :
    Except Failure Unit × Node cfg → Prop
  | done (files : AList fun _ : String => String)
      (hwritten : cfg.dhcpHostsdir.isSome → calls.dhcpWrite = .written ∧
        (vmIpv6.isSome → calls.dhcpv6Write = .written))
      (hfiles : ∀ name, reservedName cfg vmId vmIpv6.isSome name = false →
        files.lookup name = node.hostsdir.lookup name) :
      ReservationResult node calls vmId vmIp vmIpv6
        (.ok (), { node with hostsdir := files })
  | dhcpRefused (message : String) (hhostsdir : cfg.dhcpHostsdir.isSome)
      (hrefused : calls.dhcpWrite ≠ .written) :
      ReservationResult node calls vmId vmIp vmIpv6
        (.error (.error message), { node with
          hostsdir := (writeFile calls.dhcpWrite node.hostsdir vmId
            (dhcpLine (macForVmIp vmIp) vmIp)).2 })
  | dhcpv6Refused (net : Ipv6Net) (message : String)
      (hhostsdir : cfg.dhcpHostsdir.isSome)
      (hwritten : calls.dhcpWrite = .written) (hipv6 : vmIpv6 = some net)
      (hrefused : calls.dhcpv6Write ≠ .written) :
      ReservationResult node calls vmId vmIp vmIpv6
        (.error (.error message), Node.releaseIpv6 { node with
          hostsdir := removeFile calls.cleanup.removeDhcp
            (writeFile calls.dhcpv6Write
              (node.hostsdir.insert vmId (dhcpLine (macForVmIp vmIp) vmIp))
              (dhcpv6File vmId)
              (dhcpv6Line (macForVmIp vmIp) net.addr)).2 vmId }
          vmId)

theorem Node.writeReservations_result
    (node : Node cfg) (calls : CreateCalls) (vmId : String)
    (vmIp : Ipv4Addr) (vmIpv6 : Option Ipv6Net) :
    ReservationResult node calls vmId vmIp vmIpv6
      (node.writeReservations calls vmId (macForVmIp vmIp) vmIp vmIpv6) := by
  unfold Node.writeReservations
  cases hhostsdir : cfg.dhcpHostsdir with
  | none =>
      exact .done node.hostsdir (by simp [hhostsdir]) (fun _ _ => rfl)
  | some hostsdir =>
      have hconfigured : cfg.dhcpHostsdir.isSome := by simp [hhostsdir]
      have hdhcpRefused : ∀ message, calls.dhcpWrite ≠ .written →
          ReservationResult node calls vmId vmIp vmIpv6
            (.error (.error message), { node with
              hostsdir := (writeFile calls.dhcpWrite node.hostsdir vmId
                (dhcpLine (macForVmIp vmIp) vmIp)).2 }) :=
        fun message hrefused =>
          .dhcpRefused message hconfigured hrefused
      cases hdhcp : calls.dhcpWrite with
      | refused message =>
          rw [hdhcp] at hdhcpRefused
          exact hdhcpRefused _ (by simp)
      | cut length message =>
          rw [hdhcp] at hdhcpRefused
          exact hdhcpRefused _ (by simp)
      | written =>
          simp only [writeFile]
          cases vmIpv6 with
          | none =>
              refine .done _ (fun _ => ⟨hdhcp, by simp⟩) ?_
              intro name hname
              apply AList.lookup_insert_ne
              intro heq
              simp [reservedName, hconfigured, heq] at hname
          | some net =>
              have hresult : ∀ message,
                  calls.dhcpv6Write ≠ .written →
                  ReservationResult node calls vmId vmIp (some net)
                    (.error (.error message), Node.releaseIpv6 { node with
                      hostsdir := removeFile calls.cleanup.removeDhcp
                        (writeFile calls.dhcpv6Write
                          (node.hostsdir.insert vmId
                            (dhcpLine (macForVmIp vmIp) vmIp))
                          (dhcpv6File vmId)
                          (dhcpv6Line (macForVmIp vmIp) net.addr)).2 vmId }
                      vmId) := by
                intro message hrefused
                exact .dhcpv6Refused net message hconfigured hdhcp rfl
                  hrefused
              cases hdhcpv6 : calls.dhcpv6Write with
              | refused message =>
                  rw [hdhcpv6] at hresult
                  exact hresult _ (by simp)
              | cut length message =>
                  rw [hdhcpv6] at hresult
                  exact hresult _ (by simp)
              | written =>
                  refine .done _ (fun _ => ⟨hdhcp, fun _ => hdhcpv6⟩) ?_
                  intro name hname
                  have hid : name ≠ vmId := by
                    intro heq
                    simp [reservedName, hconfigured, heq] at hname
                  have hv6 : name ≠ dhcpv6File vmId := by
                    intro heq
                    simp [reservedName, hconfigured, heq] at hname
                  rw [AList.lookup_insert_ne hv6,
                    AList.lookup_insert_ne hid]

/-! ## Interface and firewall -/

inductive NetworkResult (node : Node cfg) (calls : CreateCalls)
    (vmId : String) (vmIpv6 : Option Ipv6Net) :
    Except Failure Unit × Node cfg → Prop
  | done (ruleset : Ruleset) (hnew : tapName vmId ∉ node.taps)
      (hadd : calls.tap.add = .ok ()) (hup : calls.tap.up = .ok ())
      (hmaster : calls.tap.master = .ok ())
      (hipv6 : vmIpv6.isSome → calls.addIpv6 = .ok ())
      (hsetup : cfg.nftables.setupVm calls.nftSetup node.ruleset vmId
        (tapName vmId) = .ok ruleset) :
      NetworkResult node calls vmId vmIpv6
        (.ok (), { node with
          taps := insert (tapName vmId) node.taps, ruleset := ruleset })
  | notAdded (message : String)
      (hrefused : tapName vmId ∈ node.taps ∨ calls.tap.add.isOk = false) :
      NetworkResult node calls vmId vmIpv6
        (.error (.error message),
          node.cleanupReservations calls.cleanup vmId vmIpv6.isSome)
  | notAttached (message : String) (hnew : tapName vmId ∉ node.taps)
      (hadd : calls.tap.add = .ok ())
      (hrefused : calls.tap.up.isOk = false ∨
        calls.tap.master.isOk = false) :
      NetworkResult node calls vmId vmIpv6
        (.error (.error message),
          Node.cleanupReservations
            { node with taps := insert (tapName vmId) node.taps }
            calls.cleanup vmId vmIpv6.isSome)
  | undone (message : String) (hnew : tapName vmId ∉ node.taps)
      (hadd : calls.tap.add = .ok ()) (hup : calls.tap.up = .ok ())
      (hmaster : calls.tap.master = .ok ())
      (hrefused : (vmIpv6.isSome ∧ calls.addIpv6.isOk = false) ∨
        (cfg.nftables.setupVm calls.nftSetup node.ruleset vmId
          (tapName vmId)).isOk = false) :
      NetworkResult node calls vmId vmIpv6
        (.error (.error message),
          Node.cleanupReservations
            { node with
              taps := deleteTap calls.cleanup.deleteTap
                (insert (tapName vmId) node.taps) (tapName vmId) }
            calls.cleanup vmId vmIpv6.isSome)

theorem Node.setUpNetwork_result
    (node : Node cfg) (calls : CreateCalls) (vmId : String)
    (vmIpv6 : Option Ipv6Net) :
    NetworkResult node calls vmId vmIpv6
      (node.setUpNetwork calls vmId vmIpv6) := by
  unfold Node.setUpNetwork createTap
  by_cases htap : tapName vmId ∈ node.taps
  · simp only [if_pos htap]
    exact .notAdded _ (.inl htap)
  simp only [if_neg htap]
  cases hadd : calls.tap.add with
  | error message =>
      exact .notAdded _ (.inr (by rw [hadd]; rfl))
  | ok added =>
      cases hup : calls.tap.up with
      | error message =>
          exact .notAttached _ htap hadd (.inl (by rw [hup]; rfl))
      | ok up =>
          cases hmaster : calls.tap.master with
          | error message =>
              exact .notAttached _ htap hadd (.inr (by rw [hmaster]; rfl))
          | ok attached =>
              simp only
              split
              · rename_i net message hipv6
                exact .undone _ htap hadd hup hmaster
                  (.inl ⟨rfl, by rw [hipv6]; rfl⟩)
              · rename_i vmIpv6 _ _ hnone
                have hipv6 : vmIpv6.isSome → calls.addIpv6 = .ok () := by
                  intro hsome
                  obtain ⟨net, hnet⟩ := Option.isSome_iff_exists.mp hsome
                  cases hadded : calls.addIpv6 with
                  | error message =>
                      exact (hnone net message hnet hadded).elim
                  | ok value => rfl
                cases hsetup : cfg.nftables.setupVm calls.nftSetup
                    node.ruleset vmId (tapName vmId) with
                | error message =>
                    exact .undone message htap hadd hup hmaster
                      (.inr (by rw [hsetup]; rfl))
                | ok ruleset =>
                    exact .done ruleset htap hadd hup hmaster hipv6 hsetup

/-! ## Launch -/

theorem driveArgs_panics
    {disk : DiskConfig} {failure : Failure}
    (herror : driveArgs disk = .error failure) :
    ∃ message, failure = .panicked message := by
  unfold driveArgs at herror
  split_ifs at herror with hformat hcomma
  · cases herror
    exact ⟨_, rfl⟩
  · cases herror
    exact ⟨_, rfl⟩

theorem mapM_driveArgs_panics
    {disks : List DiskConfig} {failure : Failure}
    (herror : disks.mapM driveArgs = .error failure) :
    ∃ message, failure = .panicked message := by
  induction disks with
  | nil => simp [pure, Except.pure] at herror
  | cons disk rest ih =>
      rw [List.mapM_cons] at herror
      cases hdisk : driveArgs disk with
      | error cause =>
          simp only [hdisk, bind, Except.bind, Except.error.injEq] at herror
          subst herror
          exact driveArgs_panics hdisk
      | ok args =>
          cases hrest : rest.mapM driveArgs with
          | error cause =>
              simp only [hdisk, hrest, bind, Except.bind,
                Except.error.injEq] at herror
              subst herror
              exact ih hrest
          | ok others =>
              simp [hdisk, hrest, bind, Except.bind, pure,
                Except.pure] at herror

theorem buildQemuCommand_eq
    (config : VmConfig) (paths : QemuPaths) (tap macAddr : String)
    (backend : TeeBackend) (kernelCmdline : Option String) :
    (∃ message, config.disks.mapM driveArgs = .error (.panicked message) ∧
      buildQemuCommand config paths tap backend macAddr kernelCmdline =
        .error (.panicked message)) ∨
    (∃ drives args, config.disks.mapM driveArgs = .ok drives ∧
      buildQemuCommand config paths tap backend macAddr kernelCmdline =
        .ok args) := by
  unfold buildQemuCommand
  cases hdrives : config.disks.mapM driveArgs with
  | error failure =>
      obtain ⟨message, rfl⟩ := mapM_driveArgs_panics hdrives
      exact .inl ⟨message, rfl, rfl⟩
  | ok drives => exact .inr ⟨drives, _, rfl, rfl⟩

/-- The checks that come before the command line: a registered backend, the
hash trees, and room on a NUMA node. -/
def launchable (numa : NumaAllocator cfg.topology) (calls : CreateCalls)
    (config : VmConfig) (numaHint : Option UInt32) : Bool :=
  (cfg.backends config.tee.backend).isSome &&
    (prepareBoot calls.verity config).isOk &&
    (numa.allocate config.vcpus config.memoryMb numaHint
      (isConfidential config)).isOk

/-- The command line can be built from the disks of the machine. -/
def drivesAccepted (calls : CreateCalls) (config : VmConfig) : Bool :=
  match prepareBoot calls.verity config with
  | .error _ => true
  | .ok (_, disks) => (disks.mapM driveArgs).isOk

/-- The launch carries the request's id and demand, and the placement that
was charged. -/
structure LaunchOf (numa next : NumaAllocator cfg.topology)
    (config : VmConfig) (numaHint : Option UInt32) (launch : Launch) :
    Prop where
  allocated : numa.allocate config.vcpus config.memoryMb numaHint
    (isConfidential config) = .ok (launch.placement, next)
  vmId : launch.config.vmId = config.vmId
  vcpus : launch.config.vcpus = config.vcpus
  memoryMb : launch.config.memoryMb = config.memoryMb
  tee : launch.config.tee = config.tee
  hugepageSize : launch.config.hugepageSize =
    some launch.placement.hugepageSize

inductive LaunchResult (node : Node cfg) (calls : CreateCalls)
    (config : VmConfig) (numaHint : Option UInt32) :
    Except Failure Launch × Node cfg → Prop
  | ready (launch : Launch) (next : NumaAllocator cfg.topology)
      (hlaunchable : launchable node.numa calls config numaHint = true)
      (hdrives : drivesAccepted calls config = true)
      (hlaunch : LaunchOf node.numa next config numaHint launch) :
      LaunchResult node calls config numaHint
        (.ok launch, { node with numa := next })
  | refused (message : String)
      (hrefused : launchable node.numa calls config numaHint = false) :
      LaunchResult node calls config numaHint
        (.error (.error message), node)
  | panicked (message : String) (next : NumaAllocator cfg.topology)
      (hlaunchable : launchable node.numa calls config numaHint = true)
      (hdrives : drivesAccepted calls config = false) :
      LaunchResult node calls config numaHint
        (.error (.panicked message), { node with numa := next })

theorem Node.prepareLaunch_result
    (node : Node cfg) (calls : CreateCalls) (config : VmConfig)
    (numaHint : Option UInt32) (macAddr : String) :
    LaunchResult node calls config numaHint
      (node.prepareLaunch calls config numaHint macAddr) := by
  unfold Node.prepareLaunch
  cases hbackend : cfg.backends config.tee.backend with
  | none => exact .refused _ (by simp [launchable, hbackend])
  | some backend =>
      cases hboot : prepareBoot calls.verity config with
      | error message =>
          exact .refused message (by simp [launchable, hboot, Except.isOk,
            Except.toBool])
      | ok boot =>
          obtain ⟨kernelCmdline, disks⟩ := boot
          cases hallocate : node.numa.allocate config.vcpus config.memoryMb
              numaHint (isConfidential config) with
          | error message =>
              exact .refused message (by simp [launchable, hallocate,
                Except.isOk, Except.toBool])
          | ok placed =>
              obtain ⟨placement, next⟩ := placed
              have hlaunchable :
                  launchable node.numa calls config numaHint = true := by
                simp [launchable, hbackend, hboot, hallocate, Except.isOk,
                  Except.toBool]
              have haccepted : drivesAccepted calls config =
                  (disks.mapM driveArgs).isOk := by
                simp [drivesAccepted, hboot]
              simp only
              generalize hplaced : placedConfig config disks
                cfg.topology.nodes.length placement = placed
              have hdisks : placed.disks = disks := by
                rw [← hplaced]
                rfl
              rcases buildQemuCommand_eq placed
                  (.forVm cfg.runDir placed.vmId) (tapName placed.vmId)
                  macAddr backend kernelCmdline with
                ⟨message, hdrives, hcommand⟩ |
                ⟨drives, args, hdrives, hcommand⟩
              · rw [hcommand]
                refine .panicked message next hlaunchable ?_
                rw [haccepted, ← hdisks, hdrives]
                rfl
              · rw [hcommand]
                refine .ready _ next hlaunchable ?_
                  ⟨hallocate, by rw [← hplaced]; rfl, by rw [← hplaced]; rfl,
                    by rw [← hplaced]; rfl, by rw [← hplaced]; rfl,
                    by rw [← hplaced]; rfl⟩
                rw [haccepted, ← hdisks, hdrives]
                rfl

/-- The ranges after a creation that got as far as the NDP proxy. -/
def Node.ndpRangesWith (node : Node cfg) (tap : String)
    (vmIpv6 : Option Ipv6Net) : AList fun _ : String => Ipv6Net :=
  match vmIpv6, cfg.hasNdpProxy with
  | some net, true => node.ndpRanges.insert tap net
  | _, _ => node.ndpRanges

theorem Node.addNdpRange_eq
    (node : Node cfg) (tap : String) (vmIpv6 : Option Ipv6Net) :
    node.addNdpRange tap vmIpv6 =
      { node with ndpRanges := node.ndpRangesWith tap vmIpv6 } := by
  unfold Node.addNdpRange Node.ndpRangesWith
  cases vmIpv6 with
  | none => rfl
  | some net => cases cfg.hasNdpProxy <;> rfl

/-! ## The whole call -/

/-- What a creation has settled before it touches the host: the id is new,
the offset is free, and the range is the one the allocator chose. -/
structure Started (node : Node cfg) (calls : CreateCalls)
    (vmId : String) (requestedIpv6 : Option Ipv6Net) (offset : UInt8)
    (vmIpv6 : Option Ipv6Net) : Prop where
  fresh : vmId ∉ node.vms
  free : freeOffset node.usedIpOffsets = some offset
  chosen : node.chosenIpv6 calls.draws requestedIpv6 = .ok vmIpv6

/-- The node of a started creation. -/
def Node.started (node : Node cfg) (vmId : String) (offset : UInt8)
    (vmIpv6 : Option Ipv6Net) : Node cfg :=
  (node.takeOffset offset).withIpv6 vmId vmIpv6

/-- The ways in which a creation ends, with the phases it went through. -/
inductive CreateOutcome (node : Node cfg) (calls : CreateCalls)
    (config : VmConfig) (requestedIpv6 : Option Ipv6Net)
    (numaHint : Option UInt32) : Except Failure VmInfo × Node cfg → Prop
  | duplicate (message : String) (hknown : config.vmId ∈ node.vms) :
      CreateOutcome node calls config requestedIpv6 numaHint
        (.error (.error message), node)
  | poolExhausted (message : String) (hfresh : config.vmId ∉ node.vms)
      (hfull : freeOffset node.usedIpOffsets = none) :
      CreateOutcome node calls config requestedIpv6 numaHint
        (.error (.error message), node)
  | ipv6Refused (offset : UInt8) (failure : Failure)
      (hfresh : config.vmId ∉ node.vms)
      (hfree : freeOffset node.usedIpOffsets = some offset)
      (hrefused : node.chosenIpv6 calls.draws requestedIpv6 =
        .error failure) :
      CreateOutcome node calls config requestedIpv6 numaHint
        (.error failure, node.takeOffset offset)
  | notReserved (offset : UInt8) (vmIpv6 : Option Ipv6Net)
      (failure : Failure) (after : Node cfg)
      (hstarted : Started node calls config.vmId requestedIpv6 offset
        vmIpv6)
      (hreserved : ReservationResult
        (node.started config.vmId offset vmIpv6) calls config.vmId
        (allocateVmIp cfg.gatewayIp offset) vmIpv6
        (.error failure, after)) :
      CreateOutcome node calls config requestedIpv6 numaHint
        (.error failure, after)
  | notConnected (offset : UInt8) (vmIpv6 : Option Ipv6Net)
      (reserved : Node cfg) (failure : Failure) (after : Node cfg)
      (hstarted : Started node calls config.vmId requestedIpv6 offset
        vmIpv6)
      (hreserved : ReservationResult
        (node.started config.vmId offset vmIpv6) calls config.vmId
        (allocateVmIp cfg.gatewayIp offset) vmIpv6 (.ok (), reserved))
      (hconnected : NetworkResult reserved calls config.vmId vmIpv6
        (.error failure, after)) :
      CreateOutcome node calls config requestedIpv6 numaHint
        (.error failure, after)
  | notPrepared (offset : UInt8) (vmIpv6 : Option Ipv6Net)
      (reserved connected : Node cfg) (failure : Failure)
      (after : Node cfg)
      (hstarted : Started node calls config.vmId requestedIpv6 offset
        vmIpv6)
      (hreserved : ReservationResult
        (node.started config.vmId offset vmIpv6) calls config.vmId
        (allocateVmIp cfg.gatewayIp offset) vmIpv6 (.ok (), reserved))
      (hconnected : NetworkResult reserved calls config.vmId vmIpv6
        (.ok (), connected))
      (hprepared : LaunchResult
        (connected.addNdpRange (tapName config.vmId) vmIpv6) calls config
        numaHint (.error failure, after)) :
      CreateOutcome node calls config requestedIpv6 numaHint
        (.error failure, after)
  | launched (offset : UInt8) (vmIpv6 : Option Ipv6Net)
      (reserved connected : Node cfg) (launch : Launch)
      (prepared : Node cfg)
      (hstarted : Started node calls config.vmId requestedIpv6 offset
        vmIpv6)
      (hreserved : ReservationResult
        (node.started config.vmId offset vmIpv6) calls config.vmId
        (allocateVmIp cfg.gatewayIp offset) vmIpv6 (.ok (), reserved))
      (hconnected : NetworkResult reserved calls config.vmId vmIpv6
        (.ok (), connected))
      (hprepared : LaunchResult
        (connected.addNdpRange (tapName config.vmId) vmIpv6) calls config
        numaHint (.ok launch, prepared)) :
      CreateOutcome node calls config requestedIpv6 numaHint
        (prepared.launchVm calls launch
          (allocateVmIp cfg.gatewayIp offset)
          (macForVmIp (allocateVmIp cfg.gatewayIp offset)) vmIpv6)

theorem Node.createVm_outcome
    (node : Node cfg) (calls : CreateCalls) (config : VmConfig)
    (requestedIpv6 : Option Ipv6Net) (numaHint : Option UInt32) :
    CreateOutcome node calls config requestedIpv6 numaHint
      (node.createVm calls config requestedIpv6 numaHint) := by
  unfold Node.createVm
  by_cases hknown : config.vmId ∈ node.vms
  · simp only [if_pos hknown]
    exact .duplicate _ hknown
  simp only [if_neg hknown]
  cases hfree : freeOffset node.usedIpOffsets with
  | none => exact .poolExhausted _ hknown hfree
  | some offset =>
      simp only [Node.allocateIpv6_eq]
      have hsame : (node.takeOffset offset).chosenIpv6 calls.draws
          requestedIpv6 = node.chosenIpv6 calls.draws requestedIpv6 := rfl
      rw [hsame]
      cases hchosen : node.chosenIpv6 calls.draws requestedIpv6 with
      | error failure => exact .ipv6Refused offset failure hknown hfree hchosen
      | ok vmIpv6 =>
          have hstarted : Started node calls config.vmId requestedIpv6 offset
              vmIpv6 := ⟨hknown, hfree, hchosen⟩
          simp only
          have hreserved := Node.writeReservations_result
            (node.started config.vmId offset vmIpv6) calls config.vmId
            (allocateVmIp cfg.gatewayIp offset) vmIpv6
          generalize hreservation :
            ((node.takeOffset offset).withIpv6 config.vmId
              vmIpv6).writeReservations calls config.vmId
              (macForVmIp (allocateVmIp cfg.gatewayIp offset))
              (allocateVmIp cfg.gatewayIp offset) vmIpv6 = reservation
          rw [Node.started, hreservation] at hreserved
          obtain ⟨failure | done, reserved⟩ := reservation
          · exact .notReserved offset vmIpv6 failure reserved hstarted
              hreserved
          have hconnected := reserved.setUpNetwork_result calls config.vmId
            vmIpv6
          simp only
          generalize reserved.setUpNetwork calls config.vmId vmIpv6 =
            connection at hconnected
          obtain ⟨failure | done, connected⟩ := connection
          · exact .notConnected offset vmIpv6 reserved failure connected
              hstarted hreserved hconnected
          have hprepared := (connected.addNdpRange (tapName config.vmId)
            vmIpv6).prepareLaunch_result calls config numaHint
            (macForVmIp (allocateVmIp cfg.gatewayIp offset))
          simp only
          generalize Node.prepareLaunch _ calls config numaHint _ =
            preparation at hprepared
          obtain ⟨failure | launch, prepared⟩ := preparation
          · exact .notPrepared offset vmIpv6 reserved connected failure
              prepared hstarted hreserved hconnected hprepared
          · exact .launched offset vmIpv6 reserved connected launch prepared
              hstarted hreserved hconnected hprepared

end AlephCvm.Vm

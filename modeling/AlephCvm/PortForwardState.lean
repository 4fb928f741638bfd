import Mathlib.Data.List.AList
import AlephCvm.IterationOrder
import AlephCvm.TableFolds

/-!
# Port forwards

Model of `aleph-network/src/ipv4/port_forward.rs` and of the types in
`aleph-network/src/types.rs`.
-/

namespace AlephCvm.Net

inductive Protocol where
  | tcp
  | udp
  deriving DecidableEq, Repr

def Protocol.text : Protocol → String
  | .tcp => "tcp"
  | .udp => "udp"

structure PortForward where
  vmId : String
  hostPort : UInt16
  vmPort : UInt16
  protocol : Protocol
  deriving DecidableEq, Repr

def PortForward.key (forward : PortForward) : UInt16 × Protocol :=
  (forward.hostPort, forward.protocol)

/-- The forwards by host port and protocol. -/
abbrev PortForwardState := AList fun _ : UInt16 × Protocol => PortForward

namespace PortForwardState

variable (state : PortForwardState)

def isAvailable (hostPort : UInt16) (protocol : Protocol) : Bool :=
  decide ((hostPort, protocol) ∉ state)

/-- The first available port from `start` upwards. -/
def autoAllocate (protocol : Protocol) (start : UInt16) : Option UInt16 :=
  ((List.range (65536 - start.toNat)).map fun index =>
    start + UInt16.ofNat index).find? fun port =>
      isAvailable state port protocol

theorem autoAllocate_available
    {protocol : Protocol} {start port : UInt16}
    (hfound : autoAllocate state protocol start = some port) :
    isAvailable state port protocol = true := by
  unfold autoAllocate at hfound
  generalize (List.range (65536 - start.toNat)).map
    (fun index => start + UInt16.ofNat index) = ports at hfound
  have havailable := List.find?_some hfound
  exact havailable

def add (forward : PortForward) : PortForwardState :=
  AList.insert forward.key forward state

def remove (hostPort : UInt16) (protocol : Protocol) :
    Option PortForward × PortForwardState :=
  (AList.lookup (hostPort, protocol) state,
    AList.erase (hostPort, protocol) state)

def values : List PortForward :=
  state.entries.map fun entry => entry.2

def listForVm (order : IterationOrder) (vmId : String) :
    List PortForward :=
  order.arrange ((values state).filter fun forward => forward.vmId == vmId)

/-- The forwards of a machine with the keys they are stored under. -/
def entriesOfVm (vmId : String) :
    List (Σ _ : UInt16 × Protocol, PortForward) :=
  state.entries.filter fun entry => entry.2.vmId == vmId

def removeAllForVm (order : IterationOrder) (vmId : String) :
    List PortForward × PortForwardState :=
  let keys := order.arrange ((entriesOfVm state vmId).map Sigma.fst)
  (keys.filterMap fun key => AList.lookup key state,
    keys.foldl (fun current key => AList.erase key current) state)

/-! ## Lookups -/

theorem mem_listForVm
    {order : IterationOrder} {vmId : String} {forward : PortForward} :
    forward ∈ listForVm state order vmId ↔
      (∃ key, AList.lookup key state = some forward) ∧
        forward.vmId = vmId := by
  simp only [listForVm, values, IterationOrder.mem_arrange, List.mem_filter,
    List.mem_map, beq_iff_eq]
  constructor
  · rintro ⟨⟨⟨key, found⟩, hentry, rfl⟩, howner⟩
    exact ⟨⟨key, AList.mem_lookup_iff.mpr hentry⟩, howner⟩
  · rintro ⟨⟨key, hlookup⟩, howner⟩
    exact ⟨⟨⟨key, forward⟩, AList.mem_lookup_iff.mp hlookup, rfl⟩, howner⟩

theorem mem_keys_entriesOfVm
    {order : IterationOrder} {vmId : String} {key : UInt16 × Protocol} :
    key ∈ order.arrange ((entriesOfVm state vmId).map Sigma.fst) ↔
      ∃ found, AList.lookup key state = some found ∧
        found.vmId = vmId := by
  simp only [IterationOrder.mem_arrange, List.mem_map, entriesOfVm,
    List.mem_filter, beq_iff_eq]
  constructor
  · rintro ⟨⟨listed, found⟩, ⟨hentry, howner⟩, rfl⟩
    exact ⟨found, AList.mem_lookup_iff.mpr hentry, howner⟩
  · rintro ⟨found, hlookup, howner⟩
    exact ⟨⟨key, found⟩, ⟨AList.mem_lookup_iff.mp hlookup, howner⟩, rfl⟩

/-- Exactly the forwards of the machine are gone. -/
theorem removeAllForVm_lookup
    (order : IterationOrder) (vmId : String) (key : UInt16 × Protocol)
    (forward : PortForward) :
    AList.lookup key (removeAllForVm state order vmId).2 = some forward ↔
      AList.lookup key state = some forward ∧ forward.vmId ≠ vmId := by
  rw [removeAllForVm, TableFolds.lookup_foldl_erase]
  split_ifs with hkey
  · refine iff_of_false (by simp) ?_
    rintro ⟨hlookup, hother⟩
    obtain ⟨found, hfound, howner⟩ := (mem_keys_entriesOfVm state).mp hkey
    rw [hlookup, Option.some.injEq] at hfound
    exact hother (hfound ▸ howner)
  · refine ⟨fun hlookup => ⟨hlookup, fun howner => ?_⟩, fun h => h.1⟩
    exact hkey ((mem_keys_entriesOfVm state).mpr
      ⟨forward, hlookup, howner⟩)

/-- All of them are returned. -/
theorem mem_removeAllForVm
    (order : IterationOrder) {key : UInt16 × Protocol}
    {forward : PortForward}
    (hlookup : AList.lookup key state = some forward) :
    forward ∈ (removeAllForVm state order forward.vmId).1 :=
  List.mem_filterMap.mpr
    ⟨key, (mem_keys_entriesOfVm state).mpr ⟨forward, hlookup, rfl⟩, hlookup⟩

end PortForwardState

end AlephCvm.Net

import AlephCvm.VmRegistry

/-!
# The addresses handed out

The bridge is configured with the gateway's `/24`.  `create_vm` reasons in
offsets from the gateway, `1..=254`, where the subnet bounds the host part;
the two agree only for a gateway whose last octet is zero.  An address is
usable exactly when the gateway's last octet and the offset add up to less
than 255, and since the lowest free offset is taken, it is enough that some
free offset has this property.
-/

namespace AlephCvm.Vm

open ResultContext StepRuns TableFolds AlephCvm.Tee AlephCvm.Numa
open AlephCvm.Net AlephCvm.Nft AlephCvm.Qemu

variable {cfg : NodeConfig}

def lastOctet (ip : Ipv4Addr) : UInt8 := (octets ip).2.2.2

/-- In the gateway's `/24`, and neither the gateway nor the address of the
network nor its broadcast address. -/
structure UsableAddress (gatewayIp ip : Ipv4Addr) : Prop where
  subnet : ip >>> 8 = gatewayIp >>> 8
  notGateway : ip ≠ gatewayIp
  notNetwork : lastOctet ip ≠ 0
  notBroadcast : lastOctet ip ≠ 255

/-! ## One address -/

theorem lastOctet_toNat (ip : Ipv4Addr) :
    (lastOctet ip).toNat = ip.toNat % 256 := by
  simp [lastOctet, octets]

theorem usableAddress_iff_toNat (gatewayIp ip : Ipv4Addr) :
    UsableAddress gatewayIp ip ↔
      ip.toNat / 256 = gatewayIp.toNat / 256 ∧
        ip.toNat ≠ gatewayIp.toNat ∧ ip.toNat % 256 ≠ 0 ∧
        ip.toNat % 256 ≠ 255 := by
  have hsubnet : ip >>> 8 = gatewayIp >>> 8 ↔
      ip.toNat / 256 = gatewayIp.toNat / 256 := by
    rw [← UInt32.toNat_inj]
    simp [Nat.shiftRight_eq_div_pow]
  have hgateway : ip = gatewayIp ↔ ip.toNat = gatewayIp.toNat :=
    UInt32.toNat_inj.symm
  have hnetwork : lastOctet ip = 0 ↔ ip.toNat % 256 = 0 := by
    rw [← UInt8.toNat_inj, lastOctet_toNat]
    rfl
  have hbroadcast : lastOctet ip = 255 ↔ ip.toNat % 256 = 255 := by
    rw [← UInt8.toNat_inj, lastOctet_toNat]
    rfl
  constructor
  · intro h
    exact ⟨hsubnet.mp h.subnet, fun heq => h.notGateway (hgateway.mpr heq),
      fun heq => h.notNetwork (hnetwork.mpr heq),
      fun heq => h.notBroadcast (hbroadcast.mpr heq)⟩
  · intro h
    obtain ⟨hnet, hother, hzero, hlast⟩ := h
    exact ⟨hsubnet.mpr hnet, fun heq => hother (hgateway.mp heq),
      fun heq => hzero (hnetwork.mp heq),
      fun heq => hlast (hbroadcast.mp heq)⟩

/-- The carry into the third octet and the broadcast address are reached
together with the bound. -/
theorem usableAddress_allocateVmIp_iff
    (gatewayIp : Ipv4Addr) {offset : UInt8} (hpos : 0 < offset.toNat) :
    UsableAddress gatewayIp (allocateVmIp gatewayIp offset) ↔
      (lastOctet gatewayIp).toNat + offset.toNat < 255 := by
  have hsum : (allocateVmIp gatewayIp offset).toNat =
      (gatewayIp.toNat + offset.toNat) % 2 ^ 32 := by
    simp [allocateVmIp]
  have hgateway := gatewayIp.toNat_lt
  have hoffset := offset.toNat_lt
  rw [usableAddress_iff_toNat, lastOctet_toNat, hsum]
  omega

/-! ## The lowest free offset -/

theorem mem_offsetRange {offset : UInt8} :
    offset ∈ offsetRange ↔ 0 < offset.toNat ∧ offset.toNat < 255 := by
  simp only [offsetRange, List.mem_map, List.mem_range]
  constructor
  · intro h
    obtain ⟨index, hindex, rfl⟩ := h
    have hsmall : index + 1 < 2 ^ 8 := by omega
    rw [UInt8.toNat_ofNat_of_lt' hsmall]
    omega
  · intro h
    refine ⟨offset.toNat - 1, by omega, ?_⟩
    rw [Nat.sub_add_cancel h.1]
    exact UInt8.ofNat_toNat

theorem offsetRange_sorted :
    offsetRange.Pairwise fun first second => first.toNat < second.toNat := by
  rw [offsetRange, List.pairwise_map]
  refine List.pairwise_lt_range.imp_of_mem ?_
  intro first second hfirst hsecond hlt
  rw [List.mem_range] at hfirst hsecond
  have hfirstSmall : first + 1 < 2 ^ 8 := by omega
  have hsecondSmall : second + 1 < 2 ^ 8 := by omega
  rw [UInt8.toNat_ofNat_of_lt' hfirstSmall,
    UInt8.toNat_ofNat_of_lt' hsecondSmall]
  omega

theorem freeOffset_mem
    {used : Finset UInt8} {offset : UInt8}
    (hfree : freeOffset used = some offset) : offset ∈ offsetRange :=
  List.mem_of_find?_eq_some hfree

theorem freeOffset_le
    {used : Finset UInt8} {offset other : UInt8}
    (hfree : freeOffset used = some offset) (hrange : other ∈ offsetRange)
    (hother : other ∉ used) : offset.toNat ≤ other.toNat := by
  obtain ⟨_, before, after, hsplit, hbefore⟩ :=
    List.find?_eq_some_iff_append.mp hfree
  have hsorted := offsetRange_sorted
  rw [hsplit] at hrange hsorted
  rcases List.mem_append.mp hrange with hearly | hlate
  · have hused := hbefore other hearly
    simp only [decide_not, Bool.not_not, decide_eq_true_eq] at hused
    exact absurd hused hother
  · rcases List.mem_cons.mp hlate with rfl | hlater
    · exact Nat.le_refl _
    · have hrest := (List.pairwise_append.mp hsorted).2.1
      exact Nat.le_of_lt ((List.pairwise_cons.mp hrest).1 other hlater)

/-! ## Creation -/

/-- Some free offset stays below the broadcast address. -/
def Node.UsableOffsetFree (node : Node cfg) : Prop :=
  ∃ offset : UInt8, 0 < offset.toNat ∧ offset ∉ node.usedIpOffsets ∧
    (lastOctet cfg.gatewayIp).toNat + offset.toNat < 255

theorem Node.usableOffsetFree_iff
    {node : Node cfg} {offset : UInt8}
    (hfree : freeOffset node.usedIpOffsets = some offset) :
    node.UsableOffsetFree ↔
      (lastOctet cfg.gatewayIp).toNat + offset.toNat < 255 := by
  constructor
  · intro h
    obtain ⟨other, hpos, hother, hbound⟩ := h
    have hrange : other ∈ offsetRange := mem_offsetRange.mpr (by omega)
    have hle := freeOffset_le hfree hrange hother
    omega
  · intro hbound
    have hpos := (mem_offsetRange.mp (freeOffset_mem hfree)).1
    exact ⟨offset, hpos, freeOffset_notMem hfree, hbound⟩

/-- A machine that an operation creates gets a usable address. -/
def Node.HandsUsableAddress (node : Node cfg) : ManagerOp → Prop
  | .createVm calls config requestedIpv6 numaHint =>
      (node.createVm calls config requestedIpv6 numaHint).1.isOk = true →
        ∃ handle, (node.createVm calls config requestedIpv6
          numaHint).2.vms.lookup config.vmId = some handle ∧
            UsableAddress cfg.gatewayIp handle.ip
  | _ => True

/-- A creation that goes through finds a free offset below the broadcast
address. -/
def Node.OffsetBelowBroadcast (node : Node cfg) : ManagerOp → Prop
  | .createVm calls config requestedIpv6 numaHint =>
      config.vmId ∈ node.vms ∨ freeOffset node.usedIpOffsets = none ∨
        ¬ node.Completes calls config requestedIpv6 numaHint ∨
        node.UsableOffsetFree
  | _ => True

theorem Created.handsUsable_iff
    {node after : Node cfg} {calls : CreateCalls} {config : VmConfig}
    {requestedIpv6 vmIpv6 : Option Ipv6Net} {offset : UInt8}
    {launch : Launch}
    (hcreated : Created node calls config requestedIpv6 offset vmIpv6
      launch after) :
    (∃ handle, after.vms.lookup config.vmId = some handle ∧
      UsableAddress cfg.gatewayIp handle.ip) ↔ node.UsableOffsetFree := by
  have hfree := hcreated.started.free
  have hpos := (mem_offsetRange.mp (freeOffset_mem hfree)).1
  rw [Node.usableOffsetFree_iff hfree,
    ← usableAddress_allocateVmIp_iff cfg.gatewayIp hpos, hcreated.vms,
    AList.lookup_insert]
  simp [createdHandle]

theorem Node.handsUsableAddress_iff
    (node : Node cfg) (op : ManagerOp) :
    node.HandsUsableAddress op ↔ node.OffsetBelowBroadcast op := by
  cases op with
  | createVm calls config requestedIpv6 numaHint =>
      simp only [Node.HandsUsableAddress, Node.OffsetBelowBroadcast]
      have heffect :=
        node.createVm_effect calls config requestedIpv6 numaHint
      generalize node.createVm calls config requestedIpv6 numaHint = result
        at heffect
      cases heffect with
      | refused failure hrefused =>
          refine iff_of_true (fun hok => by cases hok) ?_
          rcases hrefused with hknown | hfull
          · exact .inl hknown
          · exact .inr (.inl hfull)
      | failed failure offset after hfresh hfree hfailed hsame =>
          exact iff_of_true (fun hok => by cases hok)
            (.inr (.inr (.inl hfailed)))
      | created info offset vmIpv6 launch after hcompletes hcreated =>
          have hfresh := hcreated.started.fresh
          have hfree := hcreated.started.free
          simp only [hfresh, hfree, hcompletes, hcreated.handsUsable_iff]
          simp [Except.isOk, Except.toBool]
  | deleteVm calls id => exact Iff.rfl
  | addPortForward calls vmId hostPort vmPort protocol => exact Iff.rfl
  | removePortForward calls hostPort protocol => exact Iff.rfl
  | restart calls => exact Iff.rfl

/-- In every run of a manager, on any host and with any gateway, every
machine created gets a usable address if and only if every creation that goes
through finds a free offset below the broadcast address of the gateway's
subnet. -/
theorem created_addresses_usable_iff
    (cfg : NodeConfig) (taps : Finset String) (ruleset : Ruleset)
    (hostsdir : AList fun _ : String => String)
    (stateDir : AList fun _ : String => PersistedVm)
    (ops : List ManagerOp) :
    Along Node.step Node.HandsUsableAddress
        (.fresh cfg taps ruleset hostsdir stateDir) ops ↔
      Along Node.step Node.OffsetBelowBroadcast
        (.fresh cfg taps ruleset hostsdir stateDir) ops :=
  along_congr Node.handsUsableAddress_iff _ ops

/-- The gateway at the end of its subnet, `10.0.100.254`. -/
def highGatewayHost : NodeConfig :=
  { smallHost with gatewayIp := 0x0A0064FE }

/-- The first machine behind such a gateway gets the broadcast address. -/
theorem first_address_behind_high_gateway_is_broadcast :
    ¬ Along Node.step Node.HandsUsableAddress
      (.fresh highGatewayHost ∅ supervisorRuleset ∅ ∅)
      [.createVm createSucceeds (smallConfig "vm-a" .none) none none] := by
  intro h
  obtain ⟨handle, hlookup, husable⟩ := h.1 (by decide +kernel)
  have haddress : (((Node.fresh highGatewayHost ∅ supervisorRuleset ∅
      ∅).createVm createSucceeds (smallConfig "vm-a" .none) none
        none).2.vms.lookup (smallConfig "vm-a" .none).vmId).map
          VmHandle.ip = some 0x0A0064FF := by
    decide +kernel
  rw [hlookup, Option.map_some, Option.some.injEq] at haddress
  rw [haddress] at husable
  exact husable.notBroadcast (by decide)

end AlephCvm.Vm

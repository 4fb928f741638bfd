import AlephCvm.BootIntegrity
import AlephCvm.MachineOrigins

/-!
# Runs of the compute node's service

A node serves its gRPC requests and is restarted now and then.  Every request
is one operation of the manager or none, so a run of the service is a run of
the manager that hands only checked configurations to `create_vm`.  The
checks are made once, when a machine is created; that no later request and no
recovery leaves a machine behind that would not pass them is a property of
the whole run.
-/

namespace AlephCvm.Grpc

open ResultContext StepRuns AlephCvm.Tee AlephCvm.Net AlephCvm.Nft
open AlephCvm.Qemu AlephCvm.Vm

variable {cfg : NodeConfig}

/-! ## Requests as operations of the manager -/

inductive ServiceCall where
  | createVm (pathExists : String → Bool) (calls : CreateCalls)
      (req : CreateVmRequest)
  | deleteVm (calls : DeleteCalls) (vmId : String)
  | addPortForward (calls : ForwardCalls) (req : AddPortForwardRequest)
  | removePortForward (calls : ForwardCalls)
      (req : RemovePortForwardRequest)
  | restart (calls : RestartCalls)

def serve (node : Node cfg) : ServiceCall → Node cfg
  | .createVm pathExists calls req =>
      (createVm node pathExists calls req).2
  | .deleteVm calls vmId => (deleteVm node calls vmId).2
  | .addPortForward calls req => (addPortForward node calls req).2
  | .removePortForward calls req => (removePortForward node calls req).2
  | .restart calls => node.restart calls

section Reaches

variable {allowed : ManagerOp → Prop}

theorem createVm_reaches
    (node : Node cfg) {pathExists : String → Bool} {calls : CreateCalls}
    {req : CreateVmRequest}
    (hallowed : ∀ arguments, translateRequest pathExists req =
      .ok arguments → allowed (.createVm calls arguments.config
        arguments.requestedIpv6 arguments.numaHint)) :
    Reaches Node.step allowed node
      (createVm node pathExists calls req).2 := by
  unfold createVm
  cases htranslate : translateRequest pathExists req with
  | error status => exact .refl node
  | ok arguments =>
      have hstep : Reaches Node.step allowed node (node.step (.createVm
          calls arguments.config arguments.requestedIpv6
          arguments.numaHint)) :=
        .single (hallowed arguments htranslate)
      simp only [Node.step] at hstep ⊢
      rcases hresult : node.createVm calls arguments.config
        arguments.requestedIpv6 arguments.numaHint with ⟨answer, after⟩
      rw [hresult] at hstep
      cases answer with
      | error failure => exact hstep
      | ok info => exact hstep

theorem deleteVm_reaches
    (node : Node cfg) {calls : DeleteCalls} {vmId : String}
    (hallowed : allowed (.deleteVm calls vmId)) :
    Reaches Node.step allowed node (deleteVm node calls vmId).2 := by
  have hstep : Reaches Node.step allowed node
      (node.step (.deleteVm calls vmId)) := .single hallowed
  simp only [Node.step] at hstep
  unfold deleteVm
  rcases hresult : node.deleteVm calls vmId with ⟨answer, after⟩
  rw [hresult] at hstep
  cases answer with
  | error message => exact hstep
  | ok done => exact hstep

theorem addPortForward_reaches
    (node : Node cfg) {calls : ForwardCalls} {req : AddPortForwardRequest}
    (hallowed : ∀ protocol, parseProtocol req.protocol = .ok protocol →
      allowed (.addPortForward calls req.vmId req.hostPort.toUInt16
        req.vmPort.toUInt16 protocol)) :
    Reaches Node.step allowed node (addPortForward node calls req).2 := by
  unfold addPortForward
  cases hprotocol : parseProtocol req.protocol with
  | error message => exact .refl node
  | ok protocol =>
      have hstep : Reaches Node.step allowed node (node.step
          (.addPortForward calls req.vmId req.hostPort.toUInt16
            req.vmPort.toUInt16 protocol)) :=
        .single (hallowed protocol hprotocol)
      simp only [Node.step] at hstep ⊢
      rcases hresult : node.addPortForward calls req.vmId
        req.hostPort.toUInt16 req.vmPort.toUInt16 protocol with
        ⟨answer, after⟩
      rw [hresult] at hstep
      cases answer with
      | error message => exact hstep
      | ok forward => exact hstep

theorem removePortForward_reaches
    (node : Node cfg) {calls : ForwardCalls}
    {req : RemovePortForwardRequest}
    (hallowed : ∀ protocol, parseProtocol req.protocol = .ok protocol →
      allowed (.removePortForward calls req.hostPort.toUInt16 protocol)) :
    Reaches Node.step allowed node
      (removePortForward node calls req).2 := by
  unfold removePortForward
  cases hprotocol : parseProtocol req.protocol with
  | error message => exact .refl node
  | ok protocol =>
      have hstep : Reaches Node.step allowed node (node.step
          (.removePortForward calls req.hostPort.toUInt16 protocol)) :=
        .single (hallowed protocol hprotocol)
      simp only [Node.step] at hstep ⊢
      rcases hresult : node.removePortForward calls req.hostPort.toUInt16
        protocol with ⟨answer, after⟩
      rw [hresult] at hstep
      cases answer with
      | error message => exact hstep
      | ok done => exact hstep

end Reaches

/-! ## Configurations that pass the checks -/

/-- What the checks of a request leave of a machine's configuration, and the
name of its interface. -/
structure ValidMachine (cfg : NodeConfig) (config : VmConfig)
    (tap : String) : Prop where
  vmId : validateVmId config.vmId = .ok ()
  tap : tap = tapName config.vmId
  resources : config.vcpus ≠ 0 ∧ config.memoryMb ≠ 0
  backend : (cfg.backends config.tee.backend).isSome = true
  encrypted : config.encrypted = true → config.tee.backend ≠ .none
  bootable : config.kernel = none → config.disks ≠ []
  measured : config.tee.backend ≠ .none →
    config.kernel.isSome = true ∧ config.initrd.isSome = true
  disks : ∀ disk ∈ config.disks,
    SafeDisk disk ∧ disk.path.toList.head? = some '/'

theorem validateFilePath_absolute
    {pathExists : String → Bool} {path fieldName : String}
    (hok : validateFilePath pathExists path fieldName = .ok ()) :
    path.toList.head? = some '/' := by
  unfold validateFilePath at hok
  split_ifs at hok with hempty hrelative hexists
  · cases hok
  · cases hok
  · cases hok
  · simpa using hrelative

theorem validateVmResources_nonzero
    {vcpus memoryMb : UInt32}
    (hok : validateVmResources vcpus memoryMb = .ok ()) :
    vcpus ≠ 0 ∧ memoryMb ≠ 0 := by
  unfold validateVmResources at hok
  split_ifs at hok with hvcpus hmemory
  · cases hok
  · cases hok
  · exact ⟨hvcpus, hmemory⟩

/-- The hash tree of an absolute path has an absolute path. -/
theorem absolute_hashtree
    {files : VerityFiles} {path : String} {info : VerityInfo}
    (hok : ensureVerity files path = .ok info)
    (habsolute : path.toList.head? = some '/') :
    (hashtreeDisk info).path.toList.head? = some '/' := by
  show info.hashtreePath.toList.head? = some '/'
  have htext : info.hashtreePath.toList =
      path.toList ++ ".verity".toList := by
    rw [hashtreePath_eq hok]
    exact String.toList_append
  rw [htext, List.head?_append, habsolute]
  rfl

theorem HashTreesAdded.absolute
    {calls : VerityCalls} {disks booted : List DiskConfig}
    (hadded : HashTreesAdded calls disks booted)
    (habsolute : ∀ disk ∈ disks, disk.path.toList.head? = some '/') :
    ∀ disk ∈ booted, disk.path.toList.head? = some '/' := by
  cases hadded with
  | unchanged => exact habsolute
  | rootfs rootfs info hinfo =>
      simp only [List.forall_mem_cons] at habsolute ⊢
      exact ⟨habsolute.1, absolute_hashtree hinfo habsolute.1,
        habsolute.2⟩
  | workload rootfs workload others info workloadInfo hinfo hworkload =>
      simp only [List.forall_mem_cons] at habsolute ⊢
      exact ⟨habsolute.1, absolute_hashtree hinfo habsolute.1,
        habsolute.2.1, absolute_hashtree hworkload habsolute.2.1,
        habsolute.2.2⟩

/-- What the checks say about the configuration itself. -/
theorem translateRequest_checks
    {pathExists : String → Bool} {req : CreateVmRequest}
    {arguments : CreateArguments}
    (hok : translateRequest pathExists req = .ok arguments) :
    validateVmId arguments.config.vmId = .ok () ∧
      (arguments.config.vcpus ≠ 0 ∧ arguments.config.memoryMb ≠ 0) ∧
      (arguments.config.encrypted = true →
        arguments.config.tee.backend ≠ .none) := by
  simp only [translateRequest, bind_eq_ok, pure_eq_ok] at hok
  obtain ⟨_, hid, tee, -, kernel, -, initrd, -, _, hresources, _,
    hencrypted, _, -, _, -, ipv6, -, hequal⟩ := hok
  rw [refuseIf_eq_ok] at hencrypted
  subst hequal
  refine ⟨hid, validateVmResources_nonzero hresources, ?_⟩
  intro hset hnone
  simp only at hset hnone
  simp [hset, hnone] at hencrypted

theorem ValidMachine.of_request
    {pathExists : String → Bool} {req : CreateVmRequest}
    {arguments : CreateArguments} {calls : CreateCalls}
    {filled : VmConfig}
    (hok : translateRequest pathExists req = .ok arguments)
    (hfills : FillsIn cfg calls arguments.config filled) :
    ValidMachine cfg filled (tapName filled.vmId) := by
  have haccepted := translateRequest_accepted hok
  obtain ⟨hid, hresources, hencrypted⟩ := translateRequest_checks hok
  obtain ⟨disks, placement, hadded, rfl⟩ := hfills.filled
  have habsolute : ∀ disk ∈ arguments.config.disks,
      disk.path.toList.head? = some '/' := by
    rw [haccepted.configDisks]
    intro disk hdisk
    obtain ⟨proto, hproto, rfl⟩ := List.mem_map.mp hdisk
    exact validateFilePath_absolute
      (validateDisk_eq_ok.mp (haccepted.disks proto hproto)).1
  exact {
    vmId := hid
    tap := rfl
    resources := hresources
    backend := hfills.backend
    encrypted := hencrypted
    bootable := by
      intro hkernel
      apply hadded.ne_nil
      rw [haccepted.configDisks]
      simpa using haccepted.bootable hkernel
    measured := by
      intro hconfidential
      exact ⟨bootFile_isSome hconfidential haccepted.kernel,
        bootFile_isSome hconfidential haccepted.initrd⟩
    disks := by
      intro disk hdisk
      exact ⟨hadded.safe haccepted.safe disk hdisk,
        HashTreesAdded.absolute hadded habsolute disk hdisk⟩ }

/-! ## Names made of a valid id -/

/-- The limit on an id leaves room for the four bytes before it in the name
of an interface. -/
theorem tapName_size
    {vmId : String} (hok : validateVmId vmId = .ok ()) :
    (tapName vmId).utf8ByteSize ≤ 15 := by
  have hsize : vmId.utf8ByteSize ≤ 11 := by
    unfold validateVmId at hok
    split_ifs at hok with hempty hlong hchars hhyphen
    · cases hok
    · cases hok
    · cases hok
    · cases hok
    · simp only [maxVmIdLen] at hlong
      omega
  have htap : (tapName vmId).utf8ByteSize = 4 + vmId.utf8ByteSize := by
    simp [tapName, toString, String.utf8ByteSize_append]
    rfl
  omega

/-- A state file lies in the state directory itself. -/
theorem slash_notMem_stateFile
    {vmId : String} (hok : validateVmId vmId = .ok ()) :
    '/' ∉ (stateFile vmId).toList := by
  rw [toList_stateFile, List.mem_append]
  rintro (hid | hsuffix)
  · have hchar := (validateVmId_chars hok).2 '/' hid
    revert hchar
    decide
  · revert hsuffix
    decide

/-! ## Runs -/

/-- A request, as the manager sees it, creates valid machines only. -/
theorem serve_reaches
    (node : Node cfg) (call : ServiceCall) :
    Reaches Node.step (CreatesOnly cfg (ValidMachine cfg)) node
      (serve node call) := by
  cases call with
  | createVm pathExists calls req =>
      apply createVm_reaches
      intro arguments hok filled hfills
      exact .of_request hok hfills
  | deleteVm calls vmId => exact deleteVm_reaches node trivial
  | addPortForward calls req =>
      exact addPortForward_reaches node fun _ _ => trivial
  | removePortForward calls req =>
      exact removePortForward_reaches node fun _ _ => trivial
  | restart calls => exact .single (show CreatesOnly cfg
      (ValidMachine cfg) (.restart calls) from trivial)

/-- Whatever is requested of a node and however often it is restarted, each
machine and each state file describes a machine that passes the checks, and
its names fit. -/
theorem served_machines_valid
    (cfg : NodeConfig) (taps : Finset String) (ruleset : Ruleset)
    (hostsdir : AList fun _ : String => String)
    (calls : List ServiceCall) :
    let node := run serve (Node.fresh cfg taps ruleset hostsdir ∅) calls
    (∀ id handle, node.vms.lookup id = some handle →
      handle.config.vmId = id ∧
        ValidMachine cfg handle.config handle.tapName ∧
        handle.tapName.utf8ByteSize ≤ 15) ∧
    (∀ name persisted, node.stateDir.lookup name = some persisted →
      name = stateFile persisted.config.vmId ∧
        ValidMachine cfg persisted.config persisted.tapName ∧
        '/' ∉ name.toList) := by
  intro node
  have hreaches : Reaches Node.step (CreatesOnly cfg (ValidMachine cfg))
      (Node.fresh cfg taps ruleset hostsdir ∅) node :=
    reaches_foldl (fun state call _ => serve_reaches state call) _
  have hkept := MachinesFrom.reaches hreaches
    (MachinesFrom.fresh (ValidMachine cfg) taps ruleset hostsdir)
  constructor
  · intro id handle hlookup
    obtain ⟨hid, hvalid⟩ := hkept.vms id handle hlookup
    refine ⟨hid, hvalid, ?_⟩
    rw [hvalid.tap]
    exact tapName_size hvalid.vmId
  · intro name persisted hlookup
    have hvalid := hkept.files name persisted hlookup
    have hname := hkept.named name persisted hlookup
    refine ⟨hname, hvalid, ?_⟩
    rw [hname]
    exact slash_notMem_stateFile hvalid.vmId

end AlephCvm.Grpc

import AlephCvm.ForwardRules
import AlephCvm.SetupIdempotence
import AlephCvm.VmRecovery

/-!
# Replaying the rules after a restart

A server that starts initialises the supervisor chains and recovers its
machines; the rules of the running ones are replayed.  The setup of a machine
adds nothing that is still installed, but the rules of its port forwards are
added whatever the ruleset shows.
-/

namespace AlephCvm.Vm

open ResultContext AlephCvm.Net AlephCvm.Nft StepRuns

variable {cfg : NodeConfig}

/-! ## A start of the server -/

structure StartCalls where
  nft : InitializeCalls
  restart : RestartCalls

/-- A server that cannot initialise its chains does not recover and ends. -/
def Node.startServer (node : Node cfg) (calls : StartCalls) : Node cfg :=
  match cfg.nftables.initializeChains calls.nft node.ruleset with
  | (.error _, ruleset) =>
      .fresh cfg calls.restart.taps ruleset calls.restart.hostsdir
        node.stateDir
  | (.ok (), ruleset) =>
      node.restart { calls.restart with ruleset := ruleset }

/-- All listings of the start show the ruleset. -/
structure StartCalls.Listed (calls : StartCalls) : Prop where
  nft : calls.nft.Listed
  setup : ∀ vmId family,
    (calls.restart.nftSetup vmId).list family = .listed
  forward : ∀ vmId index family,
    (calls.restart.nftForward vmId index).list family = .listed

/-- The machines whose rules the start replays. -/
def StartCalls.replayed (calls : StartCalls)
    (stateDir : AList fun _ : String => PersistedVm) : List PersistedVm :=
  (loadedVms calls.restart stateDir).filter fun persisted =>
    calls.restart.unitActive persisted.config.vmId

/-- The chains of the supervisor and of the running machines are there, with
their jumps and rules. -/
structure RulesInstalled (cfg : NodeConfig) (ruleset : Ruleset)
    (machines : List PersistedVm) : Prop where
  supervisor : Initialized cfg.nftables ruleset
  machine : ∀ persisted ∈ machines,
    MachineSetUp cfg.nftables ruleset persisted.config.vmId
      persisted.tapName

/-- The batch that would add the rules of a forward of the machine is run. -/
def ReplaysForward (calls : RestartCalls) (persisted : PersistedVm) :
    Prop :=
  ∃ index < persisted.portForwards.length,
    (calls.nftForward persisted.config.vmId index).batch.executed = .ok ()

/-! ## What the replay of a machine changes -/

theorem recoverVms_ruleset (node : Node cfg) (calls : RestartCalls)
    (machines : List PersistedVm) :
    (machines.foldl (Node.recoverVm calls) node).ruleset =
      (machines.filter fun persisted =>
        calls.unitActive persisted.config.vmId).foldl
          (replayRules cfg.nftables calls) node.ruleset := by
  rw [List.foldl_filter]
  exact (List.foldl_hom Node.ruleset fun _ _ => rfl).symm

/-- The ruleset after a replay: longer when something was replayed, the same
when nothing was. -/
structure ReplayEffect (replayed : Prop) (before after : Ruleset) :
    Prop where
  grows : before.Grows after
  longer : replayed → before.rules.length < after.rules.length
  kept : ¬replayed → after = before

theorem ReplayEffect.refl {replayed : Prop} (hnot : ¬replayed)
    (ruleset : Ruleset) : ReplayEffect replayed ruleset ruleset where
  grows := .refl ruleset
  longer := fun hyes => absurd hyes hnot
  kept := fun _ => rfl

theorem ReplayEffect.trans {first second : Prop}
    {before middle after : Ruleset}
    (hfirst : ReplayEffect first before middle)
    (hsecond : ReplayEffect second middle after) :
    ReplayEffect (first ∨ second) before after where
  grows := hfirst.grows.trans hsecond.grows
  longer := by
    have hle1 := hfirst.grows.rules.length_le
    have hle2 := hsecond.grows.rules.length_le
    rintro (hyes | hyes)
    · have hlt := hfirst.longer hyes
      omega
    · have hlt := hsecond.longer hyes
      omega
  kept := by
    intro hnot
    rw [not_or] at hnot
    rw [hsecond.kept hnot.2, hfirst.kept hnot.1]

theorem ReplayEffect.congr {first second : Prop}
    {before after : Ruleset} (hiff : first ↔ second)
    (heffect : ReplayEffect first before after) :
    ReplayEffect second before after where
  grows := heffect.grows
  longer := fun hyes => heffect.longer (hiff.mpr hyes)
  kept := fun hnot => heffect.kept fun hyes => hnot (hiff.mp hyes)

/-! ## The replay of one machine -/

section Machine

variable {manager : NftablesManager} {ruleset : Ruleset} {vmId tap : String}

/-- The two chains into which the rules of a forward go. -/
structure ForwardChains (manager : NftablesManager) (ruleset : Ruleset)
    (vmId : String) : Prop where
  prerouting : ∃ table, getTableForChain ruleset.listing .ip
    manager.supervisorPreroutingChain = some table
  filter : ∃ table, getTableForChain ruleset.listing .ip
    (manager.vmFilterChain vmId) = some table

theorem ForwardChains.grows {after : Ruleset}
    (hgrows : ruleset.Grows after)
    (hchains : ForwardChains manager ruleset vmId) :
    ForwardChains manager after vmId where
  prerouting := hchains.prerouting.imp fun _ htable =>
    getTableForChain_grows hgrows htable
  filter := hchains.filter.imp fun _ htable =>
    getTableForChain_grows hgrows htable

theorem forwardChains_of_installed
    (hsupervisor : Initialized manager ruleset)
    (hmachine : MachineSetUp manager ruleset vmId tap) :
    ForwardChains manager ruleset vmId := by
  obtain ⟨base, hhung⟩ := hsupervisor.prerouting
  obtain ⟨table, _, hfilter⟩ := hmachine.filter
  exact ⟨exists_table_of_hasChain hhung.hasChain,
    exists_table_of_hasChain hfilter.chain⟩

theorem addPortForward_effect {calls : NftCalls}
    (hlist : ∀ family, calls.list family = .listed)
    (hchains : ForwardChains manager ruleset vmId) (guestIp : String)
    (forward : PortForward) :
    ReplayEffect (calls.batch.executed = .ok ()) ruleset
      (match manager.addPortForward calls ruleset vmId guestIp
          forward.hostPort forward.vmPort forward.protocol with
        | .ok next => next
        | .error _ => ruleset) := by
  obtain ⟨preroutingTable, hprerouting⟩ := hchains.prerouting
  obtain ⟨filterTable, hfilter⟩ := hchains.filter
  obtain ⟨after, hadded, hresult⟩ := addPortForward_listed
    hlist hprerouting hfilter guestIp forward.hostPort forward.vmPort
    forward.protocol
  rw [hresult]
  cases hexecuted : calls.batch.executed with
  | error message =>
      apply ReplayEffect.refl
      intro hok
      cases hok
  | ok value =>
      constructor
      · constructor
        · rw [hadded.chains]
        · rw [hadded.rules]
          exact List.prefix_append _ _
      · intro _
        rw [hadded.rules, List.length_append]
        exact Nat.lt_add_of_pos_right (by simp)
      · intro hnot
        exact absurd rfl hnot

theorem replayForwardEntries_effect {calls : ℕ → NftCalls}
    (hlist : ∀ index family, (calls index).list family = .listed)
    (hchains : ForwardChains manager ruleset vmId) (guestIp : String)
    (entries : List (PortForward × ℕ)) :
    ReplayEffect
      (∃ entry ∈ entries, (calls entry.2).batch.executed = .ok ()) ruleset
      (entries.foldl (fun ruleset entry =>
        match manager.addPortForward (calls entry.2) ruleset vmId guestIp
            entry.1.hostPort entry.1.vmPort entry.1.protocol with
        | .ok next => next
        | .error _ => ruleset) ruleset) := by
  induction entries generalizing ruleset with
  | nil =>
      apply ReplayEffect.refl
      simp
  | cons entry rest ih =>
      have hfirst := addPortForward_effect (hlist entry.2) hchains guestIp
        entry.1
      have hrest := ih (hchains.grows hfirst.grows)
      apply (hfirst.trans hrest).congr
      simp

theorem exists_index_iff {calls : ℕ → NftCalls}
    (forwards : List PortForward) :
    (∃ entry ∈ forwards.zipIdx, (calls entry.2).batch.executed = .ok ()) ↔
      ∃ index < forwards.length,
        (calls index).batch.executed = .ok () := by
  constructor
  · rintro ⟨⟨forward, index⟩, hmem, hok⟩
    have hindex := (List.mem_zipIdx' hmem).1
    exact ⟨index, hindex, hok⟩
  · rintro ⟨index, hindex, hok⟩
    refine ⟨(forwards[index], index), ?_, hok⟩
    rw [List.mem_zipIdx_iff_getElem?]
    exact List.getElem?_eq_getElem hindex

theorem replayRules_effect {calls : RestartCalls} {persisted : PersistedVm}
    (hsetup : ∀ vmId family, (calls.nftSetup vmId).list family = .listed)
    (hforward : ∀ vmId index family,
      (calls.nftForward vmId index).list family = .listed)
    (hsupervisor : Initialized manager ruleset)
    (hmachine : MachineSetUp manager ruleset persisted.config.vmId
      persisted.tapName) :
    ReplayEffect (ReplaysForward calls persisted) ruleset
      (replayRules manager calls ruleset persisted) := by
  have hchains := forwardChains_of_installed hsupervisor hmachine
  have hsilent := setupVm_silent (hsetup persisted.config.vmId) hmachine
  have heffect := replayForwardEntries_effect
    (hforward persisted.config.vmId) hchains (ipv4Text persisted.ip)
    persisted.portForwards.zipIdx
  rw [exists_index_iff] at heffect
  simp only [replayRules, hsilent]
  exact heffect

theorem replayMachines_effect {calls : RestartCalls}
    (machines : List PersistedVm)
    (hsetup : ∀ vmId family, (calls.nftSetup vmId).list family = .listed)
    (hforward : ∀ vmId index family,
      (calls.nftForward vmId index).list family = .listed)
    (hsupervisor : Initialized manager ruleset)
    (hmachine : ∀ persisted ∈ machines,
      MachineSetUp manager ruleset persisted.config.vmId
        persisted.tapName) :
    ReplayEffect (∃ persisted ∈ machines, ReplaysForward calls persisted)
      ruleset (machines.foldl (replayRules manager calls) ruleset) := by
  induction machines generalizing ruleset with
  | nil =>
      apply ReplayEffect.refl
      simp
  | cons persisted rest ih =>
      have hfirst := replayRules_effect hsetup hforward hsupervisor
        (hmachine persisted List.mem_cons_self)
      have hrest := ih (hsupervisor.grows hfirst.grows)
        fun other hother =>
          (hmachine other (List.mem_cons_of_mem _ hother)).grows
            hfirst.grows
      apply (hfirst.trans hrest).congr
      simp

end Machine

/-! ## Starting the server, once and again -/

theorem Node.startServer_eq (node : Node cfg) {calls : StartCalls}
    {ruleset : Ruleset}
    (hstart : cfg.nftables.initializeChains calls.nft node.ruleset =
      (.ok (), ruleset)) :
    node.startServer calls =
      node.restart { calls.restart with ruleset := ruleset } := by
  unfold Node.startServer
  rw [hstart]

theorem Node.startServer_effect (node : Node cfg) {calls : StartCalls}
    (hlisted : calls.Listed)
    (hinstalled : RulesInstalled cfg node.ruleset
      (calls.replayed node.stateDir)) :
    ReplayEffect
        (∃ persisted ∈ calls.replayed node.stateDir,
          ReplaysForward calls.restart persisted)
        node.ruleset (node.startServer calls).ruleset ∧
      (node.startServer calls).stateDir = node.stateDir := by
  rw [node.startServer_eq (NftablesManager.initializeChains_silent
    hlisted.nft hinstalled.supervisor)]
  refine ⟨?_, Node.restart_stateDir _ _⟩
  rw [Node.restart_eq, recoverVms_ruleset]
  exact replayMachines_effect _ hlisted.setup hlisted.forward
    hinstalled.supervisor hinstalled.machine

/-- While the rules of the running machines are installed, starts of the
server leave the ruleset alone, however many there are, exactly when none of
them replays a forward of a running machine. -/
theorem ruleset_kept_by_starts_iff (node : Node cfg)
    (starts : List StartCalls) (hlisted : ∀ calls ∈ starts, calls.Listed)
    (hinstalled : ∀ calls ∈ starts,
      RulesInstalled cfg node.ruleset (calls.replayed node.stateDir)) :
    Along Node.startServer (fun before calls =>
        (before.startServer calls).ruleset = before.ruleset) node starts ↔
      ∀ calls ∈ starts, ∀ persisted ∈ calls.replayed node.stateDir,
        ¬ReplaysForward calls.restart persisted := by
  have heffect : ∀ before : Node cfg, ∀ calls ∈ starts,
      before.ruleset = node.ruleset ∧ before.stateDir = node.stateDir →
      ReplayEffect
          (∃ persisted ∈ calls.replayed node.stateDir,
            ReplaysForward calls.restart persisted)
          before.ruleset (before.startServer calls).ruleset ∧
        (before.startServer calls).stateDir = node.stateDir := by
    rintro before calls hcalls ⟨hruleset, hstateDir⟩
    have hstart := before.startServer_effect (hlisted calls hcalls)
      (by rw [hruleset, hstateDir]; exact hinstalled calls hcalls)
    rwa [hstateDir] at hstart
  let Same : Node cfg → Prop := fun before =>
    before.ruleset = node.ruleset ∧ before.stateDir = node.stateDir
  let Nothing : StartCalls → Prop := fun calls =>
    ¬∃ persisted ∈ calls.replayed node.stateDir,
      ReplaysForward calls.restart persisted
  have hinit : Same node := ⟨rfl, rfl⟩
  have hguarded : Along Node.startServer (fun before calls =>
        (before.startServer calls).ruleset = before.ruleset) node starts ↔
      Along Node.startServer (fun _ calls => Nothing calls) node
        starts := by
    apply along_iff_of_invariant_of_mem _ _ hinit
    · intro before calls hcalls hsame
      obtain ⟨hreplay, _⟩ := heffect before calls hcalls hsame
      constructor
      · intro hkept hyes
        have hlonger := hreplay.longer hyes
        rw [hkept] at hlonger
        exact absurd hlonger (Nat.lt_irrefl _)
      · exact hreplay.kept
    · intro before calls hcalls hsame hnot
      obtain ⟨hreplay, hstateDir⟩ := heffect before calls hcalls hsame
      exact ⟨(hreplay.kept hnot).trans hsame.1, hstateDir⟩
  rw [hguarded, along_const_iff]
  simp [Nothing]

/-! ## A machine with a forward on the small host -/

def allListedNft : NftCalls := ⟨allListed, batchApplied⟩

/-- The small host after the first start of a server. -/
def initializedNode : Node smallHost :=
  .fresh smallHost ∅
    (smallHost.nftables.initializeChains (initializeWith batchApplied)
      Ruleset.empty).2 ∅ ∅

def forwardCallsSucceed : ForwardCalls := ⟨allListedNft, .stored, true⟩

def forwardedNode : Node smallHost :=
  run Node.step initializedNode
    [.createVm createSucceeds (smallConfig "vm-a" .none) none none,
      .addPortForward forwardCallsSucceed "vm-a" 8080 80 .tcp]

/-- The unit of the machine is still active. -/
def smallStart : StartCalls where
  nft := initializeWith batchApplied
  restart := {
    taps := ∅
    ruleset := Ruleset.empty
    hostsdir := ∅
    readDir := .ok ()
    order := .stored
    readable := fun _ => true
    unitActive := fun _ => true
    nftSetup := fun _ => allListedNft
    nftForward := fun _ _ => allListedNft }

def smallPersisted : PersistedVm where
  config := smallConfig "vm-a" .none
  ip := 0x0A006402
  ipv6 := none
  tapName := "tap-a"
  macAddr := "52:54:00:00:64:02"
  portForwards := [⟨"vm-a", 8080, 80, .tcp⟩]
  createdAtEpoch := 0
  numaNode := none

def installedRuleset : Ruleset :=
  (smallHost.nftables.setUpAll (initializeWith batchApplied)
    [⟨"vm-a", "tap-a", allListedNft⟩] Ruleset.empty).2

def installedNode : Node smallHost :=
  .fresh smallHost ∅ installedRuleset ∅
    (AList.singleton (stateFile "vm-a") smallPersisted)

theorem eq_smallPersisted_of_replayed {persisted : PersistedVm}
    (hmem : persisted ∈ smallStart.replayed installedNode.stateDir) :
    persisted = smallPersisted := by
  obtain ⟨name, hlookup⟩ :=
    exists_file_of_mem_loadedVms (List.mem_of_mem_filter hmem)
  have hentry := AList.mem_lookup_iff.mp hlookup
  simp only [installedNode, Node.fresh, AList.singleton_entries,
    List.mem_singleton] at hentry
  cases hentry
  rfl

theorem installedRuleset_setUp :
    smallHost.nftables.setUpAll (initializeWith batchApplied)
        [⟨"vm-a", "tap-a", allListedNft⟩] Ruleset.empty =
      (.ok (), installedRuleset) :=
  NftM.eq_ok_of_isOk (by decide +kernel)

theorem Node.fresh_ruleset (taps : Finset String) (ruleset : Ruleset)
    (hostsdir : AList fun _ : String => String)
    (stateDir : AList fun _ : String => PersistedVm) :
    (Node.fresh cfg taps ruleset hostsdir stateDir).ruleset = ruleset := rfl

theorem installedNode_ruleset : installedNode.ruleset = installedRuleset := by
  rw [installedNode, Node.fresh_ruleset]

theorem rulesInstalled_small :
    RulesInstalled smallHost installedRuleset
      (smallStart.replayed installedNode.stateDir) := by
  obtain ⟨hsupervisor, hmachine⟩ := setUpAll_installed
    ⟨fun _ => rfl, fun _ => rfl, fun _ => rfl, fun _ => rfl⟩
    (by simp [MachineSetup.Listed, allListedNft, allListed])
    installedRuleset_setUp
  refine ⟨hsupervisor, ?_⟩
  intro persisted hmem
  rw [eq_smallPersisted_of_replayed hmem]
  exact hmachine ("vm-a", "tap-a") List.mem_cons_self

theorem ruleset_kept_by_starts_of_installed :
    Along Node.startServer (fun before calls =>
        (before.startServer calls).ruleset = before.ruleset) installedNode
        [smallStart] ↔
      ∀ calls ∈ [smallStart],
        ∀ persisted ∈ calls.replayed installedNode.stateDir,
          ¬ReplaysForward calls.restart persisted := by
  apply ruleset_kept_by_starts_iff
  · intro calls hcalls
    rw [List.mem_singleton.mp hcalls]
    exact ⟨⟨fun _ => rfl, fun _ => rfl, fun _ => rfl, fun _ => rfl⟩,
      fun _ _ => rfl, fun _ _ _ => rfl⟩
  · intro calls hcalls
    rw [List.mem_singleton.mp hcalls, installedNode_ruleset]
    exact rulesInstalled_small

def Node.redirections (node : Node smallHost) : ℕ :=
  (node.ruleset.rules.filter fun rule =>
    smallHost.nftables.isForwardRule rule).length

theorem starts_multiply_redirections :
    forwardedNode.redirections = 1 ∧
      (forwardedNode.startServer smallStart).redirections = 2 ∧
      (run Node.startServer forwardedNode
        [smallStart, smallStart]).redirections = 3 ∧
      (forwardedNode.startServer smallStart).ruleset ≠
        forwardedNode.ruleset := by
  have hlengths :
      (forwardedNode.startServer smallStart).ruleset.rules.length ≠
        forwardedNode.ruleset.rules.length := by
    decide +kernel
  refine ⟨by decide +kernel, by decide +kernel, by decide +kernel, ?_⟩
  intro heq
  exact hlengths (congrArg (fun ruleset => ruleset.rules.length) heq)

end AlephCvm.Vm

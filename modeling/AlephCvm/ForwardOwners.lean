import AlephCvm.ForwardRules
import AlephCvm.InterfaceLeases

/-!
# Forwards and their machines

A forward is in two places: the table of the manager and the DNAT rules of the
kernel.  Adding one looks its machine up, reserves the table entry and then
installs the rules, each under another lock or under none.  Removing one, and
deleting a machine, take the entry first and delete the rules later.

A call accounts for what it has left undone: an entry that it has reserved,
the machine whose forwards it will take, the host ports whose rules it will
list, and the listing from which it will delete them.  What no call accounts
for is in order: the machine of the entry is there, and the rule is the one
of an entry.  Two things can go wrong.  Entries are taken while another call
is still installing their rules, or a listing is out of date and the kernel
refuses to delete from it.
-/

namespace AlephCvm.Vm.Concurrent

open ResultContext StepRuns AtomicPrograms AlephCvm.Tee AlephCvm.Numa
open AlephCvm.Net AlephCvm.Nft AlephCvm.Qemu

/-! ## The protocol -/

abbrev ForwardKey := UInt16 × Net.Protocol

/-- How far a call is with the forwards of a machine: it has found the
address, reserved an entry, removed the machine, has host ports whose rules
are to be listed, or has listed the rules of one of them. -/
inductive ForwardPhase where
  | idle
  | found (id : String) (ip : Ipv4Addr)
  | reserved (forward : PortForward) (ip : Ipv4Addr)
  | deleting (id : String) (ip : Ipv4Addr)
  | removing (keys : List ForwardKey)
  | listed (key : ForwardKey) (listing : Listing) (keys : List ForwardKey)

namespace ForwardPhase

def next (phase : ForwardPhase) (action : Action)
    (response : Response action) : ForwardPhase :=
  match action, response with
  | .findIp id, some ip => .found id ip
  | .reserveForward _ _ _ _, .ok forward =>
      match phase with
      | .found _ ip => .reserved forward ip
      | _ => phase
  | .reserveForward _ _ _ _, .error _ => .idle
  | .runNft (.addForward _ _ _) _, .ok () => .idle
  | .takeForward hostPort protocol, taken =>
      match phase, taken with
      | .reserved _ _, _ => .idle
      | _, some _ => .removing [(hostPort, protocol)]
      | _, none => phase
  | .removeVm id, some handle => .deleting id handle.ip
  | .takeForwards _, forwards => .removing (forwards.map PortForward.key)
  | .listRuleset (.removeForward _ _ _), .ok listing =>
      match phase with
      | .removing (key :: keys) => .listed key listing keys
      | _ => phase
  | .runNft (.removeForward _ _ _) _, _ =>
      match phase with
      | .listed _ _ keys => .removing keys
      | _ => phase
  | _, _ => phase

/-- The batches that a call may run, by their purpose. -/
def allowsBatch (manager : NftablesManager) (phase : ForwardPhase)
    (purpose : NftUse) (commands : List NftCommand) : Prop :=
  match purpose with
  | .addForward _ _ _ => ∃ forward ip, phase = .reserved forward ip ∧
      AddsDnat (fun expr => expr = forwardExpr (ipv4Text ip) forward)
        commands
  | .removeForward _ hostPort protocol => ∃ listing keys,
      phase = .listed (hostPort, protocol) listing keys ∧
        commands =
          manager.removePortForwardCommands listing hostPort protocol
  | _ => AddsNoDnat commands

end ForwardPhase

/-- Entries are reserved for the machine that was found and taken back by the
call that reserved them; rules are added for reserved entries only and deleted
from a listing. -/
def forwarding (cfg : NodeConfig) :
    AtomicPrograms.Protocol Call Action Response Reply ForwardPhase where
  start := fun _ => .idle
  next := ForwardPhase.next
  allowed := fun phase action =>
    match action with
    | .findIp _ => phase = .idle
    | .reserveForward vmId _ _ _ => ∃ ip, phase = .found vmId ip
    | .takeForward hostPort protocol => phase = .idle ∨
        ∃ forward ip, phase = .reserved forward ip ∧
          forward.key = (hostPort, protocol)
    | .removeVm _ => phase = .idle
    | .takeForwards vmId => ∃ ip, phase = .deleting vmId ip
    | .listRuleset (.removeForward _ hostPort protocol) =>
        ∃ keys, phase = .removing ((hostPort, protocol) :: keys)
    | .runNft purpose commands =>
        phase.allowsBatch cfg.nftables purpose commands
    | _ => True
  admits := fun action response =>
    match action, response with
    | .listRuleset (.removeForward _ _ _), listed => listed.isOk = true
    | .reserveForward vmId _ vmPort protocol, reserved =>
        ∀ forward, reserved = .ok forward →
          forward.vmId = vmId ∧ forward.vmPort = vmPort ∧
            forward.protocol = protocol
    | _, _ => True
  returns := fun phase _ => phase = .idle ∨ phase = .removing []

theorem forwarding_neutral (cfg : NodeConfig) (phase : ForwardPhase) :
    (forwarding cfg).Neutral
      (fun action => [Resource.lookups, .machines, .forwards,
        .firewall].contains action.resource = false) phase := by
  intro action hother
  cases action with
  | containsVm id => cases hother
  | findIp id => cases hother
  | removeVm id => cases hother
  | unlockVms => cases hother
  | insertVm id handle => cases hother
  | reserveForward vmId hostPort vmPort protocol => cases hother
  | takeForward hostPort protocol => cases hother
  | takeForwards vmId => cases hother
  | listForwards vmId => cases hother
  | listRuleset purpose => cases hother
  | runNft purpose commands => cases hother
  | _ => exact ⟨trivial, fun _ _ => rfl⟩

variable (cfg : NodeConfig)

theorem updatePersistedPortForwards_forwarding
    (phase : ForwardPhase) (vmId : String) :
    (updatePersistedPortForwards vmId).Follows (forwarding cfg)
      (fun reached _ => reached = phase) phase := by
  have hneutral := forwarding_neutral cfg phase
  unfold updatePersistedPortForwards
  refine Program.follows_action_bind.mpr ⟨trivial, fun read _ => ?_⟩
  cases read with
  | none => rfl
  | some persisted =>
      refine Program.follows_action_bind.mpr
        ⟨trivial, fun forwards _ => ?_⟩
      exact Uses.skip (saveVm_uses _ _) hneutral rfl fun _ _ => rfl

def NftUse.isForward : NftUse → Bool
  | .addForward _ _ _ => true
  | .removeForward _ _ _ => true
  | _ => false

theorem forwarding_neutral_firewall
    {purpose : NftUse} (hpurpose : purpose.isForward = false)
    {batch : List NftCommand} (hbatch : AddsNoDnat batch)
    (phase : ForwardPhase) :
    (forwarding cfg).Neutral (fun action =>
      action = .listRuleset purpose ∨ action = .runNft purpose batch)
      phase := by
  intro action haction
  cases purpose with
  | addForward vmId hostPort protocol => cases hpurpose
  | removeForward index hostPort protocol => cases hpurpose
  | _ =>
      rcases haction with rfl | rfl
      · exact ⟨trivial, fun _ _ => rfl⟩
      · exact ⟨hbatch, fun _ _ => rfl⟩

theorem nftOperation_forwarding
    {purpose : NftUse} (hpurpose : purpose.isForward = false)
    {commands : Listing → Except String (List NftCommand)}
    (hcommands : ∀ listing batch, commands listing = .ok batch →
      AddsNoDnat batch) (phase : ForwardPhase) :
    (nftOperation purpose commands).Follows (forwarding cfg)
      (fun reached _ => reached = phase) phase := by
  unfold nftOperation
  have hnothing : AddsNoDnat [] :=
    addsNoDnat_of_deletes fun _ _ => List.not_mem_nil
  have hlist := forwarding_neutral_firewall cfg hpurpose hnothing phase _
    (.inl rfl)
  refine Program.follows_action_bind.mpr
    ⟨hlist.1, fun listed hadmits => ?_⟩
  rw [hlist.2 listed hadmits]
  cases listed with
  | error message => rfl
  | ok listing =>
      cases hbatch : commands listing with
      | error message =>
          simp only [hbatch]
          rfl
      | ok batch =>
          simp only [hbatch]
          exact forwarding_neutral_firewall cfg hpurpose
            (hcommands listing batch hbatch) phase _ (.inr rfl)

theorem setupVm_forwarding (phase : ForwardPhase) (vmId : String) :
    (setupVm cfg vmId).Follows (forwarding cfg)
      (fun reached _ => reached = phase) phase := by
  apply nftOperation_forwarding cfg rfl
  intro listing batch hok
  exact NftablesManager.addsNoDnat_setupCommands _ _ hok

theorem removeChain_forwarding
    {purpose : NftUse} (hpurpose : purpose.isForward = false)
    (phase : ForwardPhase) (chain : String) :
    (nftOperation purpose fun listing =>
      .ok (NftablesManager.removeChainCommands listing chain)).Follows
      (forwarding cfg) (fun reached _ => reached = phase) phase := by
  apply nftOperation_forwarding cfg hpurpose
  intro listing batch hok
  cases hok
  exact NftablesManager.addsNoDnat_removeChainCommands _ _

theorem teardownVm_forwarding (phase : ForwardPhase) (vmId : String) :
    (teardownVm cfg vmId).Follows (forwarding cfg)
      (fun reached _ => reached = phase) phase := by
  unfold teardownVm
  refine Program.follows_bind.mpr
    ((removeChain_forwarding cfg rfl phase _).mono ?_)
  intro reached result hreached
  subst hreached
  cases result with
  | error message => rfl
  | ok done =>
      exact Program.follows_bind.mpr
        (removeChain_forwarding cfg rfl reached _)

theorem createVm_forwarding
    (config : VmConfig) (requestedIpv6 : Option Ipv6Net)
    (numaHint : Option UInt32) :
    (createVm cfg config requestedIpv6 numaHint).Follows (forwarding cfg)
      (fun reached _ => reached = .idle) .idle := by
  have hsteps : NetworkSteps cfg config.vmId (forwarding cfg) .idle .idle
      .idle := by
    constructor
    · intro phase _ action hquiet
      apply forwarding_neutral cfg phase action
      revert hquiet
      generalize action.resource = resource
      cases resource <;> decide
    · exact ⟨trivial, fun _ => rfl⟩
    · trivial
    · exact fun _ => rfl
    · rfl
    · exact fun _ => ⟨trivial, fun _ => rfl⟩
    · trivial
    · rfl
    · exact setupVm_forwarding cfg .idle config.vmId
    · exact teardownVm_forwarding cfg .idle config.vmId
  apply hsteps.createVm rfl
  · intro phase hphase _
    simpa using hphase
  · exact fun _ _ _ => ⟨trivial, rfl⟩

theorem forwardCommands_addsDnat
    {listing : Listing} {vmId : String} {guestIp : Ipv4Addr}
    {forward : PortForward} {commands : List NftCommand}
    (hcommands : forwardCommands cfg.nftables listing vmId
      (ipv4Text guestIp) forward.hostPort forward.vmPort forward.protocol =
        .ok commands) :
    AddsDnat (fun expr => expr = forwardExpr (ipv4Text guestIp) forward)
      commands := by
  unfold forwardCommands at hcommands
  cases hprerouting : getTableForChain listing .ip
      cfg.nftables.supervisorPreroutingChain with
  | none =>
      rw [hprerouting] at hcommands
      cases hcommands
  | some preroutingTable =>
      cases hfilter : getTableForChain listing .ip
          (cfg.nftables.vmFilterChain vmId) with
      | none =>
          rw [hprerouting, hfilter] at hcommands
          cases hcommands
      | some filterTable =>
          rw [hprerouting, hfilter] at hcommands
          cases hcommands
          intro key expr hmem hdnat
          rcases List.mem_cons.mp hmem with hfirst | hsecond
          · cases hfirst
            rfl
          · cases List.mem_singleton.mp hsecond
            cases hdnat

theorem addForwardRule_forwarding
    (vmId : String) (guestIp : Ipv4Addr) (forward : PortForward) :
    (addForwardRule cfg vmId guestIp forward.hostPort forward.vmPort
      forward.protocol).Follows (forwarding cfg)
      (fun reached result => reached =
        if result.isOk then .idle else .reserved forward guestIp)
      (.reserved forward guestIp) := by
  unfold addForwardRule nftOperation
  refine Program.follows_action_bind.mpr ⟨trivial, fun listed _ => ?_⟩
  cases listed with
  | error message => rfl
  | ok listing =>
      cases hcommands : forwardCommands cfg.nftables listing vmId
          (ipv4Text guestIp) forward.hostPort forward.vmPort
          forward.protocol with
      | error message =>
          simp only [hcommands]
          rfl
      | ok batch =>
          simp only [hcommands]
          refine ⟨⟨forward, guestIp, rfl,
            forwardCommands_addsDnat cfg hcommands⟩, fun response _ => ?_⟩
          cases response with
          | error message => rfl
          | ok done => rfl

theorem addPortForward_forwarding
    (vmId : String) (hostPort vmPort : UInt16) (protocol : Net.Protocol) :
    (addPortForward cfg vmId hostPort vmPort protocol).Follows
      (forwarding cfg) (fun reached _ => reached = .idle) .idle := by
  unfold addPortForward
  refine Program.follows_action_bind.mpr ⟨rfl, fun address _ => ?_⟩
  cases address with
  | none => rfl
  | some guestIp =>
      refine Program.follows_action_bind.mpr
        ⟨⟨guestIp, rfl⟩, fun response hadmits => ?_⟩
      cases response with
      | error message => rfl
      | ok forward =>
          obtain ⟨_, hport, hprotocol⟩ := hadmits forward rfl
          rw [← hport, ← hprotocol]
          refine Program.follows_bind.mpr
            ((addForwardRule_forwarding cfg vmId guestIp forward).mono ?_)
          intro reached result hreached
          subst hreached
          cases result with
          | error message =>
              exact Program.follows_action_bind.mpr
                ⟨.inr ⟨forward, guestIp, rfl, rfl⟩, fun _ _ => rfl⟩
          | ok done =>
              refine Program.follows_bind.mpr
                ((updatePersistedPortForwards_forwarding cfg .idle
                  vmId).mono ?_)
              exact fun _ _ hreached => hreached

theorem removeForwardRule_forwarding
    (index : ℕ) (key : ForwardKey) (keys : List ForwardKey) :
    (removeForwardRule cfg index key.1 key.2).Follows (forwarding cfg)
      (fun reached _ => reached = .removing keys)
      (.removing (key :: keys)) := by
  unfold removeForwardRule nftOperation
  refine Program.follows_action_bind.mpr
    ⟨⟨keys, rfl⟩, fun listed hlisted => ?_⟩
  cases listed with
  | error message => cases hlisted
  | ok listing =>
      exact ⟨⟨listing, keys, rfl, rfl⟩, fun _ _ => rfl⟩

theorem removeForwardRules_forwarding
    (index : ℕ) (forwards : List PortForward) :
    (removeForwardRules cfg index forwards).Follows (forwarding cfg)
      (fun reached _ => reached = .removing [])
      (.removing (forwards.map PortForward.key)) := by
  induction forwards generalizing index with
  | nil => rfl
  | cons forward rest ih =>
      unfold removeForwardRules
      refine Program.follows_bind.mpr
        ((removeForwardRule_forwarding cfg index forward.key
          (rest.map PortForward.key)).mono ?_)
      intro reached _ hreached
      subst hreached
      exact ih (index + 1)

theorem removePortForward_forwarding
    (hostPort : UInt16) (protocol : Net.Protocol) :
    (removePortForward cfg hostPort protocol).Follows (forwarding cfg)
      (fun reached _ => reached = .idle ∨ reached = .removing []) .idle := by
  unfold removePortForward
  refine Program.follows_action_bind.mpr ⟨.inl rfl, fun taken _ => ?_⟩
  cases taken with
  | none => exact .inl rfl
  | some forward =>
      refine Program.follows_bind.mpr
        ((removeForwardRule_forwarding cfg 0 (hostPort, protocol)
          []).mono ?_)
      intro reached result hreached
      subst hreached
      cases result with
      | error message => exact .inr rfl
      | ok done =>
          refine Program.follows_bind.mpr
            ((updatePersistedPortForwards_forwarding cfg _
              forward.vmId).mono ?_)
          exact fun _ _ hreached => .inr hreached

theorem deleteVm_forwarding (id : String) :
    (deleteVm cfg id).Follows (forwarding cfg)
      (fun reached _ => reached = .idle ∨ reached = .removing []) .idle := by
  unfold deleteVm
  refine Program.follows_action_bind.mpr ⟨rfl, fun found _ => ?_⟩
  cases found with
  | none => exact .inl rfl
  | some handle =>
      have hdeleting := forwarding_neutral cfg (.deleting id handle.ip)
      have hremoving := forwarding_neutral cfg (.removing [])
      refine Program.follows_bind.mpr ?_
      unfold deleteHandle
      refine Uses.skip (stopProcess_uses _) hdeleting rfl fun _ _ => ?_
      refine Uses.skip (releaseNuma_uses _) hdeleting rfl fun _ _ => ?_
      refine Program.follows_action_bind.mpr
        ⟨⟨handle.ip, rfl⟩, fun removed _ => ?_⟩
      refine Program.follows_bind.mpr
        ((removeForwardRules_forwarding cfg 0 removed).mono ?_)
      intro reached _ hreached
      subst hreached
      refine Uses.skip (dropIpv6_uses cfg id handle) hremoving rfl
        fun _ _ => ?_
      refine Program.follows_bind.mpr
        ((teardownVm_forwarding cfg (.removing []) id).mono ?_)
      intro reached _ hreached
      subst hreached
      refine Program.follows_action_bind.mpr ⟨trivial, fun _ _ => ?_⟩
      refine Uses.skip (removeReservations_uses cfg _ _) hremoving rfl
        fun _ _ => ?_
      refine Program.follows_action_bind.mpr ⟨trivial, fun _ _ => ?_⟩
      refine Program.follows_action_bind.mpr ⟨trivial, fun _ _ => ?_⟩
      exact ⟨trivial, fun _ _ => .inr rfl⟩

theorem program_forwarding (call : Call) :
    (program cfg call).Follows (forwarding cfg) (forwarding cfg).returns
      .idle := by
  cases call with
  | createVm config requestedIpv6 numaHint =>
      refine Program.follows_bind.mpr
        ((createVm_forwarding cfg config requestedIpv6 numaHint).mono ?_)
      exact fun _ _ hreached => .inl hreached
  | deleteVm id =>
      exact Program.follows_bind.mpr (deleteVm_forwarding cfg id)
  | addPortForward vmId hostPort vmPort protocol =>
      refine Program.follows_bind.mpr
        ((addPortForward_forwarding cfg vmId hostPort vmPort
          protocol).mono ?_)
      exact fun _ _ hreached => .inl hreached
  | removePortForward hostPort protocol =>
      exact Program.follows_bind.mpr
        (removePortForward_forwarding cfg hostPort protocol)

/-! ## Entries, rules and what is left undone -/

/-- The tables and the rules that forwards are kept in. -/
structure ForwardView where
  vms : AList fun _ : String => VmHandle
  forwards : PortForwardState
  rules : List Rule

variable {cfg}

def Shared.forwardView (shared : Shared cfg) : ForwardView where
  vms := shared.node.vms
  forwards := shared.node.portForwards
  rules := shared.node.ruleset.rules

namespace ForwardPhase

/-- The call is adding a forward to the machine, to be installed with the
address. -/
def Adds (id : String) (ip : Ipv4Addr) : ForwardPhase → Prop
  | .found other address => other = id ∧ address = ip
  | .reserved forward address => forward.vmId = id ∧ address = ip
  | _ => False

def reserves (key : ForwardKey) : ForwardPhase → Bool
  | .reserved forward _ => forward.key == key
  | _ => false

/-- The call will delete the rule. -/
def Covers (rule : Rule) : ForwardPhase → Prop
  | .removing keys => ∃ key ∈ keys, rule.redirects key = true
  | .listed key listing keys =>
      (rule ∈ listing.rules ∧ rule.redirects key = true) ∨
        ∃ key ∈ keys, rule.redirects key = true
  | _ => False

end ForwardPhase

namespace ForwardView

variable (view : ForwardView) (phases : List ForwardPhase)

/-- The machine has the address, or it had it when it was removed and its
forwards are still to be taken. -/
def Registered (id : String) (ip : Ipv4Addr) : Prop :=
  (∃ handle, view.vms.lookup id = some handle ∧ handle.ip = ip) ∨
    .deleting id ip ∈ phases

/-- The rule is the one of an entry whose rules have been installed. -/
def Backed (rule : Rule) : Prop :=
  ∃ forward ip, view.forwards.lookup forward.key = some forward ∧
    (∀ phase ∈ phases, phase.reserves forward.key = false) ∧
    view.Registered phases forward.vmId ip ∧
    rule.expr = forwardExpr (ipv4Text ip) forward

/-- Every entry has its machine, and every rule is the one of an entry or
will be deleted. -/
structure Accounted (manager : NftablesManager) : Prop where
  keyed : ∀ key forward, view.forwards.lookup key = some forward →
    forward.key = key
  owned : ∀ key forward, view.forwards.lookup key = some forward →
    ∃ ip, view.Registered phases forward.vmId ip
  adding : ∀ phase ∈ phases, ∀ id ip, phase.Adds id ip →
    view.Registered phases id ip
  reserved : ∀ forward ip, .reserved forward ip ∈ phases →
    view.forwards.lookup forward.key = some forward
  apart : phases.Pairwise fun phase other =>
    ∀ key, phase.reserves key = true → other.reserves key = false
  placed : ∀ rule ∈ view.rules, manager.isForwardRule rule = true →
    view.Backed phases rule ∨ ∃ phase ∈ phases, phase.Covers rule

variable {view phases} {manager : NftablesManager}

theorem Registered.of_subset
    {reordered : List ForwardPhase} {id : String} {ip : Ipv4Addr}
    (hsubset : phases ⊆ reordered)
    (hregistered : view.Registered phases id ip) :
    view.Registered reordered id ip := by
  rcases hregistered with hmachine | hdeleting
  · exact .inl hmachine
  · exact .inr (hsubset hdeleting)

theorem Accounted.perm
    {reordered : List ForwardPhase}
    (haccounted : view.Accounted phases manager)
    (hperm : phases.Perm reordered) :
    view.Accounted reordered manager where
  keyed := haccounted.keyed
  owned := by
    intro key forward hlookup
    obtain ⟨ip, hregistered⟩ := haccounted.owned key forward hlookup
    exact ⟨ip, hregistered.of_subset hperm.subset⟩
  adding := by
    intro phase hphase id ip hadds
    exact (haccounted.adding phase (hperm.mem_iff.mpr hphase) id ip
      hadds).of_subset hperm.subset
  reserved := fun forward ip hmem =>
    haccounted.reserved forward ip (hperm.mem_iff.mpr hmem)
  apart := by
    apply hperm.pairwise haccounted.apart
    intro phase other hapart key hother
    by_contra hphase
    rw [Bool.not_eq_false] at hphase
    rw [hapart key hphase] at hother
    cases hother
  placed := by
    intro rule hrule hforward
    rcases haccounted.placed rule hrule hforward with
      ⟨forward, ip, hlookup, hfree, hregistered, hexpr⟩ |
        ⟨phase, hphase, hcovers⟩
    · left
      exact ⟨forward, ip, hlookup,
        fun phase hphase => hfree phase (hperm.mem_iff.mpr hphase),
        hregistered.of_subset hperm.subset, hexpr⟩
    · exact .inr ⟨phase, hperm.mem_iff.mp hphase, hcovers⟩

/-! ## One step -/

variable {after : ForwardView} {phase next : ForwardPhase}
  {rest : List ForwardPhase}

theorem Registered.step
    (hvms : ∀ id handle, view.vms.lookup id = some handle →
      after.vms.lookup id = some handle)
    (hdeleting : ∀ id ip, phase = .deleting id ip → next = .deleting id ip)
    {id : String} {ip : Ipv4Addr}
    (hregistered : view.Registered (phase :: rest) id ip) :
    after.Registered (next :: rest) id ip := by
  rcases hregistered with ⟨handle, hlookup, hip⟩ | hmem
  · exact .inl ⟨handle, hvms id handle hlookup, hip⟩
  · rcases List.mem_cons.mp hmem with hphase | hrest
    · rw [hdeleting id ip hphase.symm]
      exact .inr List.mem_cons_self
    · exact .inr (List.mem_cons_of_mem _ hrest)

theorem reserved_of_reserves {key : ForwardKey}
    (hreserves : phase.reserves key = true) :
    ∃ forward ip, phase = .reserved forward ip ∧ forward.key = key := by
  cases phase with
  | reserved forward ip => exact ⟨forward, ip, rfl, eq_of_beq hreserves⟩
  | _ => cases hreserves

/-- A step that leaves the entries alone. -/
theorem Accounted.steady
    (haccounted : view.Accounted (phase :: rest) manager)
    (hforwards : after.forwards = view.forwards)
    (hregistered : ∀ id ip, view.Registered (phase :: rest) id ip →
      after.Registered (next :: rest) id ip)
    (hadds : ∀ id ip, next.Adds id ip →
      phase.Adds id ip ∨ after.Registered (next :: rest) id ip)
    (hreserved : ∀ forward ip, next = .reserved forward ip →
      phase = .reserved forward ip)
    (hplaced : ∀ rule ∈ after.rules, manager.isForwardRule rule = true →
      after.Backed (next :: rest) rule ∨
        rule ∈ view.rules ∧ (phase.Covers rule → next.Covers rule)) :
    after.Accounted (next :: rest) manager := by
  have hreserves : ∀ key, phase.reserves key = false →
      next.reserves key = false := by
    intro key hphase
    by_contra hnext
    rw [Bool.not_eq_false] at hnext
    obtain ⟨forward, ip, heq, hkey⟩ := reserved_of_reserves hnext
    rw [hreserved forward ip heq, ForwardPhase.reserves, hkey,
      beq_self_eq_true] at hphase
    cases hphase
  obtain ⟨hapart, hpairs⟩ := List.pairwise_cons.mp haccounted.apart
  constructor
  · rw [hforwards]
    exact haccounted.keyed
  · intro key forward hlookup
    rw [hforwards] at hlookup
    obtain ⟨ip, hip⟩ := haccounted.owned key forward hlookup
    exact ⟨ip, hregistered _ _ hip⟩
  · intro other hother id ip hother_adds
    rcases List.mem_cons.mp hother with hnext | hrest
    · rw [hnext] at hother_adds
      rcases hadds id ip hother_adds with hold | hnew
      · exact hregistered _ _ (haccounted.adding phase List.mem_cons_self
          id ip hold)
      · exact hnew
    · exact hregistered _ _ (haccounted.adding other
        (List.mem_cons_of_mem _ hrest) id ip hother_adds)
  · intro forward ip hmem
    rw [hforwards]
    apply haccounted.reserved forward ip
    rcases List.mem_cons.mp hmem with hnext | hrest
    · rw [hreserved forward ip hnext.symm]
      exact List.mem_cons_self
    · exact List.mem_cons_of_mem _ hrest
  · refine List.pairwise_cons.mpr ⟨?_, hpairs⟩
    intro other hother key hnext
    apply hapart other hother key
    by_contra hphase
    rw [Bool.not_eq_true] at hphase
    rw [hreserves key hphase] at hnext
    cases hnext
  · intro rule hrule hforward
    rcases hplaced rule hrule hforward with hbacked | ⟨hold, hcovers⟩
    · exact .inl hbacked
    · rcases haccounted.placed rule hold hforward with
        ⟨forward, ip, hlookup, hfree, hip, hexpr⟩ | ⟨other, hother, hheld⟩
      · left
        refine ⟨forward, ip, ?_, ?_, hregistered _ _ hip, hexpr⟩
        · rw [hforwards]
          exact hlookup
        · obtain ⟨hphase, hrest⟩ := List.forall_mem_cons.mp hfree
          exact List.forall_mem_cons.mpr ⟨hreserves _ hphase, hrest⟩
      · right
        rcases List.mem_cons.mp hother with hphase | hrest
        · rw [hphase] at hheld
          exact ⟨next, List.mem_cons_self, hcovers hheld⟩
        · exact ⟨other, List.mem_cons_of_mem _ hrest, hheld⟩

/-- A step that takes entries away and leaves machines and rules alone.  The
machines that are dropped have no entries left. -/
theorem Accounted.take
    (dropped : String → Prop)
    (haccounted : view.Accounted (phase :: rest) manager)
    (hrules : after.rules = view.rules)
    (hregistered : ∀ id ip, ¬ dropped id →
      view.Registered (phase :: rest) id ip →
        after.Registered (next :: rest) id ip)
    (hkept : ∀ key forward, after.forwards.lookup key = some forward →
      view.forwards.lookup key = some forward ∧ ¬ dropped forward.vmId)
    (hadding : ∀ other ∈ rest, ∀ id ip, other.Adds id ip → ¬ dropped id)
    (hstays : ∀ forward ip, .reserved forward ip ∈ rest →
      view.forwards.lookup forward.key = some forward →
        after.forwards.lookup forward.key = some forward)
    (hphase : ∀ rule, ¬ phase.Covers rule)
    (hadds : ∀ id ip, ¬ next.Adds id ip)
    (hreserves : ∀ key, next.reserves key = false)
    (htaken : ∀ forward guestIp rule,
      view.forwards.lookup forward.key = some forward →
      phase.reserves forward.key = false →
      rule.expr = forwardExpr guestIp forward →
        after.forwards.lookup forward.key = some forward ∨
          next.Covers rule) :
    after.Accounted (next :: rest) manager := by
  constructor
  · exact fun key forward hlookup =>
      haccounted.keyed key forward (hkept key forward hlookup).1
  · intro key forward hlookup
    obtain ⟨hold, hnot⟩ := hkept key forward hlookup
    obtain ⟨ip, hip⟩ := haccounted.owned key forward hold
    exact ⟨ip, hregistered _ _ hnot hip⟩
  · intro other hother id ip hother_adds
    rcases List.mem_cons.mp hother with hnext | hrest
    · rw [hnext] at hother_adds
      exact absurd hother_adds (hadds id ip)
    · exact hregistered _ _ (hadding other hrest id ip hother_adds)
        (haccounted.adding other (List.mem_cons_of_mem _ hrest) id ip
          hother_adds)
  · intro forward ip hmem
    rcases List.mem_cons.mp hmem with hnext | hrest
    · have hnone := hreserves forward.key
      rw [← hnext, ForwardPhase.reserves, beq_self_eq_true] at hnone
      cases hnone
    · exact hstays forward ip hrest (haccounted.reserved forward ip
        (List.mem_cons_of_mem _ hrest))
  · refine List.pairwise_cons.mpr
      ⟨?_, (List.pairwise_cons.mp haccounted.apart).2⟩
    intro other _ key hnext
    rw [hreserves key] at hnext
    cases hnext
  · intro rule hrule hforward
    rw [hrules] at hrule
    rcases haccounted.placed rule hrule hforward with
      ⟨forward, ip, hlookup, hfree, hip, hexpr⟩ | ⟨other, hother, hheld⟩
    · obtain ⟨hunreserved, hrest⟩ := List.forall_mem_cons.mp hfree
      rcases htaken forward _ rule hlookup hunreserved hexpr with
        hstill | hcovers
      · left
        refine ⟨forward, ip, hstill, ?_, ?_, hexpr⟩
        · exact List.forall_mem_cons.mpr ⟨hreserves _, hrest⟩
        · exact hregistered _ _ (hkept _ _ hstill).2 hip
      · exact .inr ⟨next, List.mem_cons_self, hcovers⟩
    · right
      rcases List.mem_cons.mp hother with hcase | hrest
      · rw [hcase] at hheld
        exact absurd hheld (hphase rule)
      · exact ⟨other, List.mem_cons_of_mem _ hrest, hheld⟩

theorem Accounted.reserve
    {id : String} {ip : Ipv4Addr} {forward : PortForward}
    (haccounted : view.Accounted (.found id ip :: rest) manager)
    (howner : forward.vmId = id)
    (hfree : view.forwards.lookup forward.key = none) :
    ForwardView.Accounted { view with
      forwards := view.forwards.insert forward.key forward }
      (.reserved forward ip :: rest) manager := by
  have hother : ∀ key found, view.forwards.lookup key = some found →
      key ≠ forward.key := by
    intro key found hlookup heq
    rw [heq, hfree] at hlookup
    cases hlookup
  have hkept : ∀ key found, view.forwards.lookup key = some found →
      (view.forwards.insert forward.key forward).lookup key =
        some found := by
    intro key found hlookup
    rw [AList.lookup_insert_ne (hother key found hlookup)]
    exact hlookup
  have hregistered : ∀ other address,
      view.Registered (.found id ip :: rest) other address →
        ForwardView.Registered { view with
          forwards := view.forwards.insert forward.key forward }
          (.reserved forward ip :: rest) other address := by
    intro other address
    apply Registered.step
    · exact fun _ _ hlookup => hlookup
    · intro other address heq
      cases heq
  have hmachine := haccounted.adding _ List.mem_cons_self id ip ⟨rfl, rfl⟩
  constructor
  · intro key found hlookup
    by_cases hkey : key = forward.key
    · rw [hkey, AList.lookup_insert, Option.some.injEq] at hlookup
      rw [hkey, hlookup]
    · rw [AList.lookup_insert_ne hkey] at hlookup
      exact haccounted.keyed key found hlookup
  · intro key found hlookup
    by_cases hkey : key = forward.key
    · rw [hkey, AList.lookup_insert, Option.some.injEq] at hlookup
      rw [← hlookup, howner]
      exact ⟨ip, hregistered _ _ hmachine⟩
    · rw [AList.lookup_insert_ne hkey] at hlookup
      obtain ⟨address, haddress⟩ := haccounted.owned key found hlookup
      exact ⟨address, hregistered _ _ haddress⟩
  · intro other hmem owner address hadds
    rcases List.mem_cons.mp hmem with hnext | hrest
    · rw [hnext] at hadds
      rw [← hadds.1, ← hadds.2, howner]
      exact hregistered _ _ hmachine
    · exact hregistered _ _ (haccounted.adding other
        (List.mem_cons_of_mem _ hrest) owner address hadds)
  · intro found address hmem
    rcases List.mem_cons.mp hmem with hnext | hrest
    · cases hnext
      exact AList.lookup_insert _
    · exact hkept _ _ (haccounted.reserved found address
        (List.mem_cons_of_mem _ hrest))
  · refine List.pairwise_cons.mpr
      ⟨?_, (List.pairwise_cons.mp haccounted.apart).2⟩
    intro other hmem key hnext
    by_contra hreserves
    rw [Bool.not_eq_false] at hreserves
    obtain ⟨found, address, heq, hkey⟩ := reserved_of_reserves hreserves
    rw [heq] at hmem
    have hlookup := haccounted.reserved found address
      (List.mem_cons_of_mem _ hmem)
    apply hother _ _ hlookup
    rw [hkey, eq_of_beq hnext]
  · intro rule hrule hforward
    rcases haccounted.placed rule hrule hforward with
      ⟨found, address, hlookup, hunreserved, haddress, hexpr⟩ |
        ⟨other, hmem, hheld⟩
    · left
      refine ⟨found, address, hkept _ _ hlookup, ?_,
        hregistered _ _ haddress, hexpr⟩
      refine List.forall_mem_cons.mpr
        ⟨?_, (List.forall_mem_cons.mp hunreserved).2⟩
      exact beq_eq_false_iff_ne.mpr (Ne.symm (hother _ _ hlookup))
    · right
      rcases List.mem_cons.mp hmem with hphase | hrest
      · rw [hphase] at hheld
        exact hheld.elim
      · exact ⟨other, List.mem_cons_of_mem _ hrest, hheld⟩

/-- Taking the entry of a host port, which no other call has reserved. -/
theorem Accounted.takeForward
    {key : ForwardKey}
    (haccounted : view.Accounted (phase :: rest) manager)
    (hphase : phase = .idle ∨
      ∃ forward ip, phase = .reserved forward ip ∧ forward.key = key)
    (hguard : ∀ other ∈ rest, other.reserves key = false)
    (hnext : next = .removing [key] ∨
      next = .idle ∧
        (view.forwards.lookup key = none ∨ phase.reserves key = true)) :
    ForwardView.Accounted { view with forwards := view.forwards.erase key }
      (next :: rest) manager := by
  have hothers : ∀ other found, other ≠ key →
      ((view.forwards.erase key).lookup other = some found ↔
        view.forwards.lookup other = some found) := by
    intro other found hother
    rw [AList.lookup_erase_ne hother]
  apply haccounted.take (fun _ => False)
  · rfl
  · intro id ip _
    apply Registered.step
    · exact fun _ _ hlookup => hlookup
    · intro id ip heq
      rcases hphase with hidle | ⟨forward, address, hreserved, _⟩
      · rw [hidle] at heq
        cases heq
      · rw [hreserved] at heq
        cases heq
  · intro other found hlookup
    have hother : other ≠ key := by
      intro heq
      rw [heq, AList.lookup_erase] at hlookup
      cases hlookup
    exact ⟨(hothers other found hother).mp hlookup, fun hdropped =>
      hdropped⟩
  · exact fun _ _ _ _ _ hdropped => hdropped
  · intro forward ip hmem hlookup
    have hfree := hguard _ hmem
    have hother : forward.key ≠ key := beq_eq_false_iff_ne.mp hfree
    exact (hothers _ _ hother).mpr hlookup
  · intro rule hcovers
    rcases hphase with hidle | ⟨forward, address, hreserved, _⟩
    · rw [hidle] at hcovers
      exact hcovers
    · rw [hreserved] at hcovers
      exact hcovers
  · intro id ip hadds
    rcases hnext with hremoving | ⟨hidle, _⟩
    · rw [hremoving] at hadds
      exact hadds
    · rw [hidle] at hadds
      exact hadds
  · intro other
    rcases hnext with hremoving | ⟨hidle, _⟩
    · rw [hremoving]
      rfl
    · rw [hidle]
      rfl
  · intro forward guestIp rule hlookup hunreserved hexpr
    by_cases hkey : forward.key = key
    · right
      rcases hnext with hremoving | ⟨_, hnone | hreserves⟩
      · rw [hremoving]
        refine ⟨key, List.mem_cons_self, ?_⟩
        rw [← hkey]
        exact redirects_of_forwardExpr hexpr
      · rw [← hkey, hlookup] at hnone
        cases hnone
      · rw [hkey, hreserves] at hunreserved
        cases hunreserved
    · exact .inl ((hothers _ _ hkey).mpr hlookup)

/-- Taking the entries of a machine that was removed, to which no other call
is adding one. -/
theorem Accounted.takeForwards
    {id : String} {ip : Ipv4Addr} (order : IterationOrder)
    (haccounted : view.Accounted (.deleting id ip :: rest) manager)
    (hguard : ∀ other ∈ rest, ∀ address, ¬ other.Adds id address) :
    ForwardView.Accounted { view with
      forwards :=
        (PortForwardState.removeAllForVm view.forwards order id).2 }
      (.removing ((PortForwardState.removeAllForVm view.forwards order
        id).1.map PortForward.key) :: rest) manager := by
  apply haccounted.take (fun other => other = id)
  · rfl
  · rintro other address hother (hmachine | hmem)
    · exact .inl hmachine
    · rcases List.mem_cons.mp hmem with hphase | hrest
      · cases hphase
        exact absurd rfl hother
      · exact .inr (List.mem_cons_of_mem _ hrest)
  · intro key forward hlookup
    exact (PortForwardState.removeAllForVm_lookup _ _ _ _ _).mp hlookup
  · intro other hmem owner address hadds heq
    rw [heq] at hadds
    exact hguard other hmem address hadds
  · intro forward address hmem hlookup
    apply (PortForwardState.removeAllForVm_lookup _ _ _ _ _).mpr
    refine ⟨hlookup, fun howner => ?_⟩
    exact hguard _ hmem address ⟨howner, rfl⟩
  · exact fun _ hcovers => hcovers
  · exact fun _ _ hadds => hadds
  · exact fun _ => rfl
  · intro forward guestIp rule hlookup _ hexpr
    by_cases howner : forward.vmId = id
    · right
      refine ⟨forward.key, ?_, redirects_of_forwardExpr hexpr⟩
      apply List.mem_map_of_mem
      rw [← howner]
      exact PortForwardState.mem_removeAllForVm _ order hlookup
    · left
      exact (PortForwardState.removeAllForVm_lookup _ _ _ _ _).mpr
        ⟨hlookup, howner⟩

end ForwardView

/-! ## Conditions on a step -/

/-- The calls of `nft` that remove forwards go through. -/
def removalCallSucceeds (outcome : Outcome) : Action → Bool
  | .listRuleset (.removeForward _ _ _) =>
      outcome.nft.list .ip == .listed && outcome.nft.list .ip6 == .listed
  | .runNft (.removeForward _ _ _) _ => outcome.nft.batch.executed.isOk
  | _ => true

def deletesPresent (ruleset : Ruleset) : NftCommand → Bool
  | .deleteRule key handle => ruleset.rules.any fun rule =>
      rule.chainKey == key && rule.handle == handle
  | _ => false

/-- The kernel accepts the batch that deletes the rules of a forward, or none
of the rules is left. -/
def removalLands (shared : Shared cfg) : Action → Bool
  | .runNft (.removeForward _ _ _) commands =>
      (shared.node.ruleset.applyBatch commands).isSome ||
        commands.all fun command =>
          !deletesPresent shared.node.ruleset command
  | _ => true

def ForwardPhase.addsTo (id : String) : ForwardPhase → Bool
  | .found other _ => other == id
  | .reserved forward _ => forward.vmId == id
  | _ => false

/-- An entry is not taken while another call installs its rules, and the
entries of a machine are not while another call adds one. -/
def takesApart (action : Action) (other : ForwardPhase) : Bool :=
  match action with
  | .takeForward hostPort protocol => !other.reserves (hostPort, protocol)
  | .takeForwards vmId => !other.addsTo vmId
  | _ => true

theorem ForwardPhase.Adds.addsTo
    {phase : ForwardPhase} {id : String} {ip : Ipv4Addr}
    (hadds : phase.Adds id ip) : phase.addsTo id = true := by
  cases phase with
  | found other address => exact beq_iff_eq.mpr hadds.1
  | reserved forward address => exact beq_iff_eq.mpr hadds.1
  | _ => exact hadds.elim

/-! ## One action keeps the account -/

section Actions

variable {outcome : Outcome} {shared reached : Shared cfg}
  {phase : ForwardPhase} {rest : List ForwardPhase}

theorem exec_runNft
    {purpose : NftUse} {commands : List NftCommand}
    {response : Except String Unit}
    (hexec : exec outcome (.runNft purpose commands) shared =
      some (response, reached)) :
    (response = .ok () ∧
      shared.node.ruleset.applyBatch commands =
        some reached.node.ruleset) ∨
    (∃ message, response = .error message) ∧ reached = shared ∧
      (outcome.nft.batch.executed.isOk = true →
        shared.node.ruleset.applyBatch commands = none) := by
  cases exec_runNft_effect hexec with
  | applied ruleset hcommands =>
      exact .inl ⟨rfl, executeNftCommands_eq_ok hcommands⟩
  | failed message hcommands =>
      refine .inr ⟨⟨message, rfl⟩, rfl, fun hexecuted => ?_⟩
      cases hbatch : outcome.nft.batch.executed with
      | error failure =>
          rw [hbatch] at hexecuted
          cases hexecuted
      | ok done =>
          by_contra hsome
          obtain ⟨ruleset, happly⟩ :=
            Option.ne_none_iff_exists'.mp hsome
          rw [executeNftCommands_of_applyBatch hbatch happly] at hcommands
          cases hcommands

theorem forwardView_runNft
    {purpose : NftUse} {commands : List NftCommand}
    {response : Except String Unit}
    (hexec : exec outcome (.runNft purpose commands) shared =
      some (response, reached)) :
    reached.node.vms = shared.node.vms ∧
      reached.node.portForwards = shared.node.portForwards :=
  ⟨(exec_sameExcept hexec).vms nofun,
    (exec_sameExcept hexec).portForwards nofun⟩

theorem accounted_otherBatch
    {purpose : NftUse} {commands : List NftCommand}
    {response : Except String Unit}
    (haccounted : shared.forwardView.Accounted (phase :: rest) cfg.nftables)
    (hbatch : AddsNoDnat commands)
    (hexec : exec outcome (.runNft purpose commands) shared =
      some (response, reached)) :
    reached.forwardView.Accounted (phase :: rest) cfg.nftables := by
  obtain ⟨hvms, hforwards⟩ := forwardView_runNft hexec
  rcases exec_runNft hexec with ⟨_, happly⟩ | ⟨_, hsame, _⟩
  · apply haccounted.steady hforwards
    · intro id ip
      apply ForwardView.Registered.step
      · intro owner handle hlookup
        simp only [Shared.forwardView, hvms]
        exact hlookup
      · exact fun _ _ hdeleting => hdeleting
    · exact fun _ _ hadds => .inl hadds
    · exact fun _ _ hreserved => hreserved
    · intro rule hrule hforward
      rcases Ruleset.mem_rules_of_applyBatch happly hrule with
        hold | hadded
      · exact .inr ⟨hold, fun hcovers => hcovers⟩
      · unfold NftablesManager.isForwardRule at hforward
        rw [Bool.and_eq_true] at hforward
        exact (hbatch _ _ hadded hforward.2).elim
  · rw [hsame]
    exact haccounted

theorem accounted_addForward
    {vmId : String} {hostPort : UInt16} {protocol : Net.Protocol}
    {commands : List NftCommand} {response : Except String Unit}
    (haccounted : shared.forwardView.Accounted (phase :: rest) cfg.nftables)
    (hallowed : phase.allowsBatch cfg.nftables
      (.addForward vmId hostPort protocol) commands)
    (hexec : exec outcome
      (.runNft (.addForward vmId hostPort protocol) commands) shared =
        some (response, reached)) :
    reached.forwardView.Accounted
      (phase.next (.runNft (.addForward vmId hostPort protocol) commands)
        response :: rest) cfg.nftables := by
  obtain ⟨forward, guestIp, hphase, hadds⟩ := hallowed
  subst hphase
  obtain ⟨hvms, hforwards⟩ := forwardView_runNft hexec
  rcases exec_runNft hexec with ⟨hok, happly⟩ |
    ⟨⟨message, herror⟩, hsame, _⟩
  · subst hok
    have hregistered : ∀ id ip, shared.forwardView.Registered
        (.reserved forward guestIp :: rest) id ip →
          reached.forwardView.Registered (.idle :: rest) id ip := by
      intro id ip
      apply ForwardView.Registered.step
      · intro owner handle hlookup
        simp only [Shared.forwardView, hvms]
        exact hlookup
      · intro id ip heq
        cases heq
    apply haccounted.steady hforwards hregistered
    · exact fun _ _ hnothing => hnothing.elim
    · intro found ip heq
      cases heq
    · intro rule hrule hforward
      rcases Ruleset.mem_rules_of_applyBatch happly hrule with
        hold | hadded
      · exact .inr ⟨hold, fun hcovers => hcovers.elim⟩
      · left
        unfold NftablesManager.isForwardRule at hforward
        rw [Bool.and_eq_true] at hforward
        refine ⟨forward, guestIp, ?_, ?_, ?_,
          hadds _ _ hadded hforward.2⟩
        · simp only [Shared.forwardView, hforwards]
          exact haccounted.reserved forward guestIp List.mem_cons_self
        · refine List.forall_mem_cons.mpr ⟨rfl, ?_⟩
          intro other hother
          exact (List.pairwise_cons.mp haccounted.apart).1 other hother
            forward.key (beq_self_eq_true _)
        · exact hregistered _ _ (haccounted.adding _ List.mem_cons_self
            forward.vmId guestIp ⟨rfl, rfl⟩)
  · subst hsame herror
    exact haccounted

theorem accounted_removeForward
    {index : ℕ} {hostPort : UInt16} {protocol : Net.Protocol}
    {commands : List NftCommand} {response : Except String Unit}
    (haccounted : shared.forwardView.Accounted (phase :: rest) cfg.nftables)
    (hallowed : phase.allowsBatch cfg.nftables
      (.removeForward index hostPort protocol) commands)
    (hcall : outcome.nft.batch.executed.isOk = true)
    (hlands : removalLands shared
      (.runNft (.removeForward index hostPort protocol) commands) = true)
    (hexec : exec outcome
      (.runNft (.removeForward index hostPort protocol) commands) shared =
        some (response, reached)) :
    reached.forwardView.Accounted
      (phase.next (.runNft (.removeForward index hostPort protocol) commands)
        response :: rest) cfg.nftables := by
  obtain ⟨listing, keys, hphase, hcommands⟩ := hallowed
  subst hphase
  obtain ⟨hvms, hforwards⟩ := forwardView_runNft hexec
  have hdeletes : ∀ chain expr, .addRule chain expr ∉ commands := by
    rw [hcommands]
    exact cfg.nftables.removePortForwardCommands_deletes listing _ _
  have hlisted : ∀ rule ∈ listing.rules,
      cfg.nftables.isForwardRule rule = true →
        rule.redirects (hostPort, protocol) = true →
          .deleteRule rule.chainKey rule.handle ∈ commands := by
    intro rule hrule hforward hredirects
    rw [hcommands]
    exact NftablesManager.mem_removePortForwardCommands hrule hforward
      hredirects
  have hkept : ∀ rule ∈ reached.node.ruleset.rules,
      rule ∈ shared.node.ruleset.rules ∧
        (rule ∈ listing.rules → cfg.nftables.isForwardRule rule = true →
          rule.redirects (hostPort, protocol) = false) := by
    intro rule hrule
    rcases exec_runNft hexec with ⟨_, happly⟩ | ⟨_, hsame, hnone⟩
    · constructor
      · rcases Ruleset.mem_rules_of_applyBatch happly hrule with
          hold | hadded
        · exact hold
        · exact absurd hadded (hdeletes _ _)
      · intro hmem hforward
        by_contra hredirects
        rw [Bool.not_eq_false] at hredirects
        exact Ruleset.deleted_of_applyBatch hdeletes happly
          (hlisted rule hmem hforward hredirects) hrule
    · rw [hsame] at hrule
      refine ⟨hrule, ?_⟩
      intro hmem hforward
      by_contra hredirects
      rw [Bool.not_eq_false] at hredirects
      have hdelete := hlisted rule hmem hforward hredirects
      rw [removalLands, hnone hcall, Option.isSome_none, Bool.false_or,
        List.all_eq_true] at hlands
      have hgone := hlands _ hdelete
      rw [Bool.not_eq_true', deletesPresent, List.any_eq_false] at hgone
      apply hgone rule hrule
      simp
  apply haccounted.steady hforwards
  · intro id ip
    apply ForwardView.Registered.step
    · intro owner handle hlookup
      simp only [Shared.forwardView, hvms]
      exact hlookup
    · intro id ip heq
      cases heq
  · exact fun _ _ hnothing => hnothing.elim
  · intro found ip heq
    cases heq
  · intro rule hrule hforward
    obtain ⟨hold, hspared⟩ := hkept rule hrule
    refine .inr ⟨hold, ?_⟩
    rintro (⟨hmem, hredirects⟩ | hlater)
    · rw [hspared hmem hforward] at hredirects
      cases hredirects
    · exact hlater

/-- The tables and the rules are changed by three kinds of actions. -/
theorem forwardView_of_resource
    {action : Action} {response : Response action}
    (hexec : exec outcome action shared = some (response, reached))
    (hother : [Resource.machines, .forwards, .firewall].contains
      action.resource = false) :
    reached.forwardView = shared.forwardView := by
  have hsame := exec_sameExcept hexec
  have hne : ∀ relevant ∈ [Resource.machines, .forwards, .firewall],
      action.resource ≠ relevant := by
    intro relevant hmem heq
    rw [heq, List.contains_iff_mem.mpr hmem] at hother
    cases hother
  simp only [Shared.forwardView, hsame.vms (hne _ (by simp)),
    hsame.portForwards (hne _ (by simp)), hsame.ruleset (hne _ (by simp))]

theorem accounted_takeForward
    {key : ForwardKey} {response : Option PortForward}
    (haccounted : shared.forwardView.Accounted (phase :: rest) cfg.nftables)
    (hallowed : phase = .idle ∨
      ∃ forward ip, phase = .reserved forward ip ∧ forward.key = key)
    (hguard : ∀ other ∈ rest, other.reserves key = false)
    (hexec : exec outcome (.takeForward key.1 key.2) shared =
      some (response, reached)) :
    reached.forwardView.Accounted
      (phase.next (.takeForward key.1 key.2) response :: rest)
      cfg.nftables := by
  have hresponse : shared.node.portForwards.lookup key = response :=
    congrArg Prod.fst (Option.some.inj hexec)
  have hview : reached.forwardView = { shared.forwardView with
      forwards := shared.forwardView.forwards.erase key } := by
    cases hexec
    rfl
  rw [hview]
  apply haccounted.takeForward hallowed hguard
  rcases hallowed with hidle | ⟨forward, ip, hreserved, hkey⟩
  · subst hidle
    cases response with
    | none => exact .inr ⟨rfl, .inl hresponse⟩
    | some forward => exact .inl rfl
  · subst hreserved
    exact .inr ⟨rfl, .inr (beq_iff_eq.mpr hkey)⟩

theorem accounted_removeVm
    {id : String} {handle : VmHandle}
    (haccounted : shared.forwardView.Accounted (.idle :: rest)
      cfg.nftables)
    (hexec : exec outcome (.removeVm id) shared =
      some (some handle, reached)) :
    reached.forwardView.Accounted (.deleting id handle.ip :: rest)
      cfg.nftables := by
  obtain ⟨hlookup, hsaved⟩ := exec_removeVm hexec
  have hvms : reached.node.vms = shared.node.vms.erase id :=
    congrArg SaveView.vms hsaved
  have hsame := exec_sameExcept hexec
  apply haccounted.steady (hsame.portForwards nofun)
  · rintro other ip (⟨found, hfound, hip⟩ | hmem)
    · by_cases hother : other = id
      · right
        subst hother
        have heq : found = handle :=
          Option.some.inj (hfound.symm.trans hlookup.symm)
        rw [← hip, heq]
        exact List.mem_cons_self
      · left
        refine ⟨found, ?_, hip⟩
        simp only [Shared.forwardView, hvms]
        rw [AList.lookup_erase_ne hother]
        exact hfound
    · rcases List.mem_cons.mp hmem with hidle | hrest
      · cases hidle
      · exact .inr (List.mem_cons_of_mem _ hrest)
  · exact fun _ _ hnothing => hnothing.elim
  · intro forward ip heq
    cases heq
  · intro rule hrule _
    simp only [Shared.forwardView, hsame.ruleset nofun] at hrule
    exact .inr ⟨hrule, fun hcovers => hcovers.elim⟩

theorem accounted_insertVm
    {id : String} {handle : VmHandle}
    (haccounted : shared.forwardView.Accounted (phase :: rest) cfg.nftables)
    (hfresh : id ∉ shared.node.vms)
    (hexec : exec outcome (.insertVm id handle) shared =
      some ((), reached)) :
    reached.forwardView.Accounted (phase :: rest) cfg.nftables := by
  cases (unlessLocked_eq_some.mp hexec).2
  apply haccounted.steady
  · rfl
  · intro other ip
    apply ForwardView.Registered.step
    · intro owner found hlookup
      have hother : owner ≠ id := by
        intro heq
        rw [heq] at hlookup
        exact hfresh (AList.lookup_isSome.mp
          (Option.isSome_of_eq_some hlookup))
      simp only [Shared.forwardView]
      rw [AList.lookup_insert_ne hother]
      exact hlookup
    · exact fun _ _ hdeleting => hdeleting
  · exact fun _ _ hadds => .inl hadds
  · exact fun _ _ hreserved => hreserved
  · exact fun rule hrule _ => .inr ⟨hrule, fun hcovers => hcovers⟩

/-- Steps that change the phase of the call only. -/
theorem accounted_phase
    {next : ForwardPhase}
    (haccounted : shared.forwardView.Accounted (phase :: rest) cfg.nftables)
    (hdeleting : ∀ id ip, phase ≠ .deleting id ip)
    (hadds : ∀ id ip, next.Adds id ip →
      shared.forwardView.Registered (next :: rest) id ip)
    (hreserved : ∀ forward ip, next ≠ .reserved forward ip)
    (hcovers : ∀ rule ∈ shared.node.ruleset.rules,
      phase.Covers rule → next.Covers rule) :
    shared.forwardView.Accounted (next :: rest) cfg.nftables := by
  apply haccounted.steady rfl
  · intro id ip
    apply ForwardView.Registered.step
    · exact fun _ _ hlookup => hlookup
    · exact fun id ip heq => absurd heq (hdeleting id ip)
  · exact fun id ip hnext => .inr (hadds id ip hnext)
  · exact fun forward ip heq => absurd heq (hreserved forward ip)
  · exact fun rule hrule _ => .inr ⟨hrule, hcovers rule hrule⟩

/-- Every action keeps the account, if the removals of rules go through and
entries are not taken from under another call. -/
theorem exec_keeps_accounted
    {action : Action} {response : Response action}
    (haccounted : shared.forwardView.Accounted (phase :: rest) cfg.nftables)
    (hallowed : (forwarding cfg).allowed phase action)
    (hexec : exec outcome action shared = some (response, reached))
    (hfresh : insertsFresh shared action)
    (hcall : removalCallSucceeds outcome action = true)
    (hlands : removalLands shared action = true)
    (hguard : ∀ other ∈ rest, takesApart action other = true) :
    reached.forwardView.Accounted
      ((forwarding cfg).next phase action response :: rest)
      cfg.nftables := by
  have hview := forwardView_of_resource hexec
  cases action with
  | findIp id =>
      have hidle : phase = .idle := hallowed
      subst hidle
      cases (unlessLocked_eq_some.mp hexec).2
      cases hlookup : shared.node.vms.lookup id with
      | none => exact haccounted
      | some handle =>
          apply accounted_phase haccounted
          · exact fun _ _ heq => by cases heq
          · intro other ip hadds
            rw [← hadds.1, ← hadds.2]
            exact .inl ⟨handle, hlookup, rfl⟩
          · exact fun _ _ heq => by cases heq
          · exact fun _ _ hcovers => hcovers.elim
  | reserveForward vmId hostPort vmPort protocol =>
      obtain ⟨ip, hfound⟩ := hallowed
      subst hfound
      obtain ⟨hrefused, hreserved⟩ := exec_reserveForward hexec
      cases response with
      | error message =>
          rw [hrefused message rfl]
          apply accounted_phase haccounted
          · exact fun _ _ heq => by cases heq
          · exact fun _ _ hadds => hadds.elim
          · exact fun _ _ heq => by cases heq
          · exact fun _ _ hcovers => hcovers.elim
      | ok forward =>
          obtain ⟨howner, hfree, hsaved⟩ := hreserved forward rfl
          have hafter : reached.forwardView = { shared.forwardView with
              forwards := shared.forwardView.forwards.insert forward.key
                forward } := by
            have hsame := exec_sameExcept hexec
            simp only [Shared.forwardView, hsame.vms nofun,
              hsame.ruleset nofun]
            rw [show reached.node.portForwards = _ from
              congrArg SaveView.forwards hsaved]
            rfl
          rw [hafter]
          exact haccounted.reserve howner hfree
  | takeForward hostPort protocol =>
      have hfree : ∀ other ∈ rest,
          other.reserves (hostPort, protocol) = false := by
        intro other hother
        simpa [takesApart] using hguard other hother
      exact accounted_takeForward haccounted hallowed hfree hexec
  | takeForwards vmId =>
      obtain ⟨ip, hdeleting⟩ := hallowed
      subst hdeleting
      cases hexec
      apply haccounted.takeForwards outcome.order
      intro other hother address hadds
      have hapart := hguard other hother
      rw [takesApart, hadds.addsTo] at hapart
      cases hapart
  | removeVm id =>
      have hidle : phase = .idle := hallowed
      subst hidle
      cases response with
      | none =>
          cases exec_removeVm_effect hexec with
          | missing hmissing => exact haccounted
      | some handle => exact accounted_removeVm haccounted hexec
  | insertVm id handle =>
      exact accounted_insertVm haccounted (hfresh id handle rfl) hexec
  | unlockVms =>
      cases hexec
      exact haccounted
  | listForwards vmId =>
      cases hexec
      exact haccounted
  | listRuleset purpose =>
      cases hexec
      cases purpose with
      | removeForward index hostPort protocol =>
          obtain ⟨keys, hremoving⟩ := hallowed
          subst hremoving
          rw [removalCallSucceeds, Bool.and_eq_true, beq_iff_eq,
            beq_iff_eq] at hcall
          have hlist : ∀ family, outcome.nft.list family = .listed := by
            intro family
            cases family with
            | ip => exact hcall.1
            | ip6 => exact hcall.2
          obtain ⟨listing, hlisting, hrules, _⟩ :=
            executeListRuleset_listed hlist shared.node.ruleset
          rw [hlisting]
          apply accounted_phase haccounted
          · exact fun _ _ heq => by cases heq
          · exact fun _ _ hadds => hadds.elim
          · exact fun _ _ heq => by cases heq
          · rintro rule hrule ⟨key, hkey, hredirects⟩
            rcases List.mem_cons.mp hkey with hfirst | hlater
            · left
              rw [← hfirst]
              exact ⟨(hrules rule).mpr hrule, hredirects⟩
            · exact .inr ⟨key, hlater, hredirects⟩
      | _ => exact haccounted
  | runNft purpose commands =>
      cases purpose with
      | addForward vmId hostPort protocol =>
          exact accounted_addForward haccounted hallowed hexec
      | removeForward index hostPort protocol =>
          exact accounted_removeForward haccounted hallowed hcall hlands
            hexec
      | _ => exact accounted_otherBatch haccounted hallowed hexec
  | _ =>
      rw [hview rfl]
      exact haccounted

end Actions

/-! ## Runs -/

/-- Every entry has its machine, and every DNAT rule of the supervisor is the
one of an entry and leads to its machine. -/
structure ForwardsOwned (node : Node cfg) : Prop where
  keyed : ∀ key forward, node.portForwards.lookup key = some forward →
    forward.key = key
  entries : ∀ key forward, node.portForwards.lookup key = some forward →
    forward.vmId ∈ node.vms
  rules : ∀ rule ∈ node.ruleset.rules,
    cfg.nftables.isForwardRule rule = true →
      ∃ forward handle,
        node.portForwards.lookup forward.key = some forward ∧
        node.vms.lookup forward.vmId = some handle ∧
        rule.expr = forwardExpr (ipv4Text handle.ip) forward

/-- The calls of `nft` that remove forwards go through. -/
def RemovalsSucceed : System cfg → Event → Prop :=
  EventMeets (forwarding cfg)
    (fun _ outcome _ action _ => removalCallSucceeds outcome action = true)
    (fun _ _ _ _ _ _ => True) (fun _ _ => True)

/-- No entry is taken under another call that adds it, and no listing is out
of date when rules are deleted from it. -/
def ForwardsApart : System cfg → Event → Prop :=
  EventMeets (forwarding cfg)
    (fun shared _ _ action _ => removalLands shared action = true)
    (fun _ _ _ action _ other => takesApart action other = true)
    (fun _ _ => True)

instance RemovalsSucceed.decidable (system : System cfg) (event : Event) :
    Decidable (RemovalsSucceed system event) :=
  EventMeets.decidable _ _ _ _ system event

instance ForwardsApart.decidable (system : System cfg) (event : Event) :
    Decidable (ForwardsApart system event) :=
  EventMeets.decidable _ _ _ _ system event

structure ForwardsKept (system : System cfg) : Prop where
  leases : system.Kept tapLeases (leaseOwners cfg)
  follows : system.Follows (forwarding cfg)
  accounted : system.shared.forwardView.Accounted
    (system.ghosts (forwarding cfg)) cfg.nftables

theorem exec_admits
    {outcome : Outcome} {action : Action} {shared reached : Shared cfg}
    {response : Response action}
    (hexec : exec outcome action shared = some (response, reached))
    (hcall : removalCallSucceeds outcome action = true) :
    (forwarding cfg).admits action response := by
  cases action with
  | reserveForward vmId hostPort vmPort protocol =>
      intro forward hforward
      subst hforward
      cases exec_reserveForward_effect hexec with
      | reserved chosen hport => exact ⟨rfl, rfl, rfl⟩
  | listRuleset purpose =>
      cases purpose with
      | removeForward index hostPort protocol =>
          rw [removalCallSucceeds, Bool.and_eq_true, beq_iff_eq,
            beq_iff_eq] at hcall
          cases hexec
          simp only [executeListRuleset, hcall.1, hcall.2]
          rfl
      | _ => trivial
  | _ => trivial

theorem begun_accounted
    {shared : Shared cfg} {phases : List ForwardPhase}
    (haccounted : shared.forwardView.Accounted phases cfg.nftables) :
    shared.forwardView.Accounted (phases ++ [.idle]) cfg.nftables := by
  have hsubset : phases ⊆ phases ++ [.idle] := List.subset_append_left _ _
  constructor
  · exact haccounted.keyed
  · intro key forward hlookup
    obtain ⟨ip, hip⟩ := haccounted.owned key forward hlookup
    exact ⟨ip, hip.of_subset hsubset⟩
  · intro phase hphase id ip hadds
    rcases List.mem_append.mp hphase with hold | hnew
    · exact (haccounted.adding phase hold id ip hadds).of_subset hsubset
    · rw [List.mem_singleton.mp hnew] at hadds
      exact hadds.elim
  · intro forward ip hmem
    rcases List.mem_append.mp hmem with hold | hnew
    · exact haccounted.reserved forward ip hold
    · cases List.mem_singleton.mp hnew
  · rw [List.pairwise_append]
    refine ⟨haccounted.apart, List.pairwise_singleton _ _, ?_⟩
    intro phase _ other hother key _
    rw [List.mem_singleton.mp hother]
    rfl
  · intro rule hrule hforward
    rcases haccounted.placed rule hrule hforward with
      ⟨forward, ip, hlookup, hfree, hip, hexpr⟩ | ⟨phase, hphase, hcovers⟩
    · left
      refine ⟨forward, ip, hlookup, ?_, hip.of_subset hsubset, hexpr⟩
      intro phase hphase
      rcases List.mem_append.mp hphase with hold | hnew
      · exact hfree phase hold
      · rw [List.mem_singleton.mp hnew]
        rfl
    · exact .inr ⟨phase, hsubset hphase, hcovers⟩

theorem step_keeps_forwards
    {system : System cfg} {event : Event}
    (hkept : ForwardsKept system) (halive : event.isCrash = false)
    (hsucceed : RemovalsSucceed system event)
    (hapart : ForwardsApart system event) :
    ForwardsKept (step system event) := by
  have hleases := step_keeps_leaseOwners hkept.leases halive
  cases event with
  | call made =>
      refine ⟨hleases, ?_, ?_⟩
      · exact Pool.call_follows hkept.follows (program_forwarding cfg made)
      · have hghosts : (step system (.call made)).ghosts (forwarding cfg) =
            system.ghosts (forwarding cfg) ++ [.idle] :=
          Pool.call_ghosts (program cfg) system made
        rw [hghosts]
        exact begun_accounted hkept.accounted
  | advance index outcome =>
      have hmeets := Pool.Meets.and
        (meets_insertsFresh hkept.leases index outcome)
        (Pool.Meets.and (EventMeets.meets hsucceed)
          (EventMeets.meets hapart))
      have hafter := Pool.advance_invariant
        (fun shared phases =>
          shared.forwardView.Accounted phases cfg.nftables)
        (fun hperm haccounted => haccounted.perm hperm)
        (fun _ hexec hcond => exec_admits hexec hcond.2.1) (by
          intro shared outcome phase rest action response reached
            haccounted hallowed hexec hcond hguard
          exact exec_keeps_accounted haccounted hallowed hexec hcond.1
            hcond.2.1 hcond.2.2 hguard)
        hkept.follows hkept.accounted hmeets
      exact ⟨hleases, hafter.1, hafter.2⟩
  | unit changed state =>
      refine ⟨hleases, hkept.follows, ?_⟩
      rw [step, Shared.evolveUnit_eq]
      exact hkept.accounted
  | crash calls => cases halive

/-- When every call has returned, nothing is left undone. -/
theorem forwardsOwned_of_quiet
    {system : System cfg} (hkept : ForwardsKept system)
    (hquiet : system.Quiet) : ForwardsOwned system.shared.node := by
  have hsettled : ∀ phase ∈ system.ghosts (forwarding cfg),
      phase = .idle ∨ phase = .removing [] := by
    intro phase hphase
    obtain ⟨task, htask, hghost⟩ := List.mem_map.mp hphase
    obtain ⟨reply, hreply⟩ :=
      Option.isSome_iff_exists.mp (hquiet task htask)
    have hreturns :=
      Task.returns_of_result (hkept.follows task htask) hreply
    rw [hghost] at hreturns
    exact hreturns
  have hmachine : ∀ id ip, system.shared.forwardView.Registered
      (system.ghosts (forwarding cfg)) id ip →
        ∃ handle, system.shared.node.vms.lookup id = some handle ∧
          handle.ip = ip := by
    rintro id ip (hmachine | hdeleting)
    · exact hmachine
    · rcases hsettled _ hdeleting with heq | heq
      · cases heq
      · cases heq
  constructor
  · exact hkept.accounted.keyed
  · intro key forward hlookup
    obtain ⟨ip, hip⟩ := hkept.accounted.owned key forward hlookup
    obtain ⟨handle, hhandle, _⟩ := hmachine _ _ hip
    exact AList.lookup_isSome.mp (Option.isSome_of_eq_some hhandle)
  · intro rule hrule hforward
    rcases hkept.accounted.placed rule hrule hforward with
      ⟨forward, ip, hlookup, _, hip, hexpr⟩ | ⟨phase, hphase, hcovers⟩
    · obtain ⟨handle, hhandle, haddress⟩ := hmachine _ _ hip
      rw [← haddress] at hexpr
      exact ⟨forward, handle, hlookup, hhandle, hexpr⟩
    · rcases hsettled phase hphase with heq | heq
      · rw [heq] at hcovers
        exact hcovers.elim
      · rw [heq] at hcovers
        obtain ⟨key, hkey, _⟩ := hcovers
        cases hkey

theorem forwardsKept_of_owned
    {shared : Shared cfg} (howned : ForwardsOwned shared.node)
    (hpresent : TapsPresent shared.node) :
    ForwardsKept (⟨shared, []⟩ : System cfg) := by
  refine ⟨Pool.Kept.empty hpresent fun _ hneeds => hneeds, ?_, ?_⟩
  · intro task htask
    cases htask
  · constructor
    · exact howned.keyed
    · intro key forward hlookup
      obtain ⟨handle, hhandle⟩ := Option.isSome_iff_exists.mp
        (AList.lookup_isSome.mpr (howned.entries key forward hlookup))
      exact ⟨handle.ip, .inl ⟨handle, hhandle, rfl⟩⟩
    · intro phase hphase
      cases hphase
    · intro forward ip hmem
      cases hmem
    · exact List.Pairwise.nil
    · intro rule hrule hforward
      obtain ⟨forward, handle, hlookup, hhandle, hexpr⟩ :=
        howned.rules rule hrule hforward
      refine .inl ⟨forward, handle.ip, hlookup, ?_,
        .inl ⟨handle, hhandle, rfl⟩, hexpr⟩
      intro phase hphase
      cases hphase

/-- Calls of all four kinds run at the same time.  When all have returned,
every entry and every DNAT rule belongs to a machine, if no entry was taken
under a call that was adding it. -/
theorem forwards_owned_after_calls
    (cfg : NodeConfig) (shared : Shared cfg) (events : List Event)
    (howned : ForwardsOwned shared.node)
    (hpresent : TapsPresent shared.node)
    (halive : ∀ event ∈ events, event.isCrash = false)
    (hsucceed : Along step RemovalsSucceed (⟨shared, []⟩ : System cfg)
      events)
    (hapart : Along step ForwardsApart (⟨shared, []⟩ : System cfg) events)
    (hquiet : (run step (⟨shared, []⟩ : System cfg) events).Quiet) :
    ForwardsOwned
      (run step (⟨shared, []⟩ : System cfg) events).shared.node := by
  apply forwardsOwned_of_quiet _ hquiet
  apply run_invariant_of_along _ (forwardsKept_of_owned howned hpresent)
    (along_and (along_of_forall halive _) (along_and hsucceed hapart))
  intro system event hkept hevent
  exact step_keeps_forwards hkept hevent.1 hevent.2.1 hevent.2.2

theorem oneMachine_forwardsOwned : ForwardsOwned oneMachine.node := by
  have hforwards : oneMachine.node.portForwards = ∅ := by
    apply AList.ext
    decide +kernel
  have hrules : ∀ rule ∈ oneMachine.node.ruleset.rules,
      smallHost.nftables.isForwardRule rule = false := by
    decide +kernel
  constructor
  · intro key forward hlookup
    rw [hforwards, AList.lookup_empty] at hlookup
    cases hlookup
  · intro key forward hlookup
    rw [hforwards, AList.lookup_empty] at hlookup
    cases hlookup
  · intro rule hrule hforward
    rw [hrules rule hrule] at hforward
    cases hforward

theorem oneMachine_tapsPresent : TapsPresent oneMachine.node := by
  have hentries : ∀ entry ∈ oneMachine.node.vms.entries,
      entry.2.tapName = tapName entry.1 ∧
        tapName entry.1 ∈ oneMachine.node.taps := by
    decide +kernel
  intro id handle hlookup
  exact hentries ⟨id, handle⟩ (AList.mem_lookup_iff.mp hlookup)

/-- One forward is removed while another one is added, and the machine is
deleted with the forward that is left. -/
def forwardedRun : List Event :=
  .call (.addPortForward "vm-a" 8080 80 .tcp) ::
  .call (.addPortForward "vm-a" 8443 443 .tcp) ::
  .call (.removePortForward 8080 .tcp) ::
    (advances 0 3 ++ advances 1 2 ++ advances 0 5 ++ advances 2 2 ++
      advances 1 6 ++ advances 2 5) ++
  .call (.deleteVm "vm-a") :: advances 3 14

theorem forwards_owned_after_deletion :
    ForwardsOwned (run step (⟨oneMachine, []⟩ : System smallHost)
      forwardedRun).shared.node := by
  apply forwards_owned_after_calls
  · exact oneMachine_forwardsOwned
  · exact oneMachine_tapsPresent
  · decide +kernel
  · decide +kernel
  · decide +kernel
  · decide +kernel

/-- The machine is found, its deletion takes its forwards, and then the new
one is added. -/
def outlivingRun : List Event :=
  .call (.addPortForward "vm-a" 8080 80 .tcp) :: advances 0 1 ++
  .call (.deleteVm "vm-a") :: advances 1 4 ++ advances 0 7 ++ advances 1 8

theorem forward_outlives_machine :
    ¬ ∀ events : List Event, (∀ event ∈ events, event.isCrash = false) →
      Along step RemovalsSucceed (⟨oneMachine, []⟩ : System smallHost)
        events →
      (run step (⟨oneMachine, []⟩ : System smallHost) events).Quiet →
        ForwardsOwned (run step (⟨oneMachine, []⟩ : System smallHost)
          events).shared.node := by
  intro howned
  have hfinal := howned outlivingRun (by decide +kernel)
    (by decide +kernel) (by decide +kernel)
  have hentry : (run step (⟨oneMachine, []⟩ : System smallHost)
      outlivingRun).shared.node.portForwards.lookup (8080, .tcp) =
        some ⟨"vm-a", 8080, 80, .tcp⟩ := by
    decide +kernel
  have hmem := hfinal.entries _ _ hentry
  have hnone : (run step (⟨oneMachine, []⟩ : System smallHost)
      outlivingRun).shared.node.vms.keys = [] := by
    decide +kernel
  rw [AList.mem_keys, hnone] at hmem
  cases hmem

end AlephCvm.Vm.Concurrent

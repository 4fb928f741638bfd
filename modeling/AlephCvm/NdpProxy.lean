import Mathlib.Data.List.AList
import AlephCvm.AddressTexts
import AlephCvm.AtomicPrograms
import AlephCvm.IterationOrder
import AlephCvm.StepRuns

/-!
# The configuration of the NDP proxy

Model of `aleph-network/src/ndp_proxy.rs`.  A call changes the map of ranges
under the lock, gives the lock up, and takes it again to write the file from
the map as it is then.  Between the two sections other calls may change the
map, write the file, or do both.  What the file lists is told by its words,
as the daemon takes them.
-/

namespace AlephCvm.Net

open AtomicPrograms SplitText StepRuns

/-- The ranges by TAP interface, and `/etc/ndppd.conf` if it is there. -/
structure NdpState where
  ranges : AList fun _ : String => Ipv6Net
  conf : Option String

/-- A TAP interface and its range. -/
abbrev NdpRule := Sigma fun _ : String => Ipv6Net

def ndpRule (rule : NdpRule) : String :=
  s!"    rule {ipv6NetText rule.2} \x7b\n        iface {rule.1}\n    \x7d\n"

/-- The text of the file for the rules in the order in which the map is
traversed. -/
def ndppdConf (hostInterface : String)
    (rules : List NdpRule) : String :=
  rules.foldl (fun config rule => config ++ ndpRule rule)
    s!"proxy {hostInterface} \x7b\n" ++ "\x7d\n"

/-! ## The two sections -/

inductive NdpAction where
  | insert (tapName : String) (range : Ipv6Net)
  | remove (tapName : String)
  | updateConfig
  deriving DecidableEq

/-- How the map is traversed, and what a write that fails leaves. -/
structure NdpOutcome where
  order : IterationOrder
  writeFailure : Option (Option String)

/-- The restart of the daemon changes neither the map nor the file, and its
result is only logged. -/
def NdpState.updateConfig (hostInterface : String) (outcome : NdpOutcome)
    (state : NdpState) : NdpState :=
  match outcome.writeFailure with
  | some left => { state with conf := left }
  | none => { state with
      conf := some (ndppdConf hostInterface
        (outcome.order.arrange state.ranges.entries)) }

def NdpState.exec (hostInterface : String) (outcome : NdpOutcome) :
    NdpAction → NdpState → Option (Unit × NdpState)
  | .insert tapName range, state =>
      some ((), { state with ranges := state.ranges.insert tapName range })
  | .remove tapName, state =>
      some ((), { state with ranges := state.ranges.erase tapName })
  | .updateConfig, state =>
      some ((), state.updateConfig hostInterface outcome)

abbrev NdpProgram := Program NdpAction (fun _ => Unit) Unit

def addRange (tapName : String) (range : Ipv6Net) : NdpProgram := do
  .action (.insert tapName range)
  .action .updateConfig

def deleteRange (tapName : String) : NdpProgram := do
  .action (.remove tapName)
  .action .updateConfig

inductive NdpCall where
  | addRange (tapName : String) (range : Ipv6Net)
  | deleteRange (tapName : String)
  deriving DecidableEq

def NdpCall.program : NdpCall → NdpProgram
  | .addRange tapName range => Net.addRange tapName range
  | .deleteRange tapName => Net.deleteRange tapName

abbrev NdpSystem := Pool NdpState NdpCall NdpAction (fun _ => Unit) Unit

inductive NdpEvent where
  | call (call : NdpCall)
  | advance (index : ℕ) (outcome : NdpOutcome)

def NdpSystem.step (hostInterface : String) (system : NdpSystem) :
    NdpEvent → NdpSystem
  | .call call => Pool.call NdpCall.program system call
  | .advance index outcome =>
      Pool.advance (NdpState.exec hostInterface) system index outcome

def NdpEvent.Writes : NdpEvent → Prop
  | .call _ => True
  | .advance _ outcome => outcome.writeFailure = none

instance NdpEvent.Writes.decidable :
    ∀ event : NdpEvent, Decidable event.Writes
  | .call _ => inferInstanceAs (Decidable True)
  | .advance _ outcome =>
      inferInstanceAs (Decidable (outcome.writeFailure = none))

/-! ## Reading the file -/

/-- The rules up to the brace that closes the section of the proxy. -/
def readNdpRules : List (List Char) → Option (List NdpRule)
  | [closing] => if closing = ['}'] then some [] else none
  | rule :: range :: opening :: iface :: tapName :: closing :: rest =>
      if rule = "rule".toList ∧ opening = ['{'] ∧ iface = "iface".toList ∧
          closing = ['}'] then do
        let range ← readIpv6Net (String.ofList range)
        let rules ← readNdpRules rest
        return ⟨String.ofList tapName, range⟩ :: rules
      else none
  | _ => none

/-- The interface of the proxy and its rules. -/
def readNdppdConf (conf : String) : Option (String × List NdpRule) :=
  match words isWhiteSpace conf.toList with
  | proxy :: hostInterface :: opening :: rest =>
      if proxy = "proxy".toList ∧ opening = ['{'] then do
        let rules ← readNdpRules rest
        return (String.ofList hostInterface, rules)
      else none
  | _ => none

/-- The name of a network interface has no white space. -/
def IsWord (name : String) : Prop :=
  name.toList ≠ [] ∧ ∀ char ∈ name.toList, isWhiteSpace char = false

instance (name : String) : Decidable (IsWord name) :=
  inferInstanceAs (Decidable (_ ∧ _))

def NdpRule.words (rule : NdpRule) : List (List Char) :=
  ["rule".toList, (ipv6NetText rule.2).toList, ['{'], "iface".toList] ++
    (SplitText.words isWhiteSpace rule.1.toList ++ [['}']])

/-- What the file says, as far as white space does not count: one rule for
each TAP interface of the map, with its range, and nothing else.  Where the
names are words, it is read back so. -/
structure ListsRanges (hostInterface : String)
    (ranges : AList fun _ : String => Ipv6Net) (conf : String) : Prop where
  worded : ∃ rules : List NdpRule, rules.Perm ranges.entries ∧
    words isWhiteSpace conf.toList =
      "proxy".toList :: (words isWhiteSpace hostInterface.toList ++
        ['{'] :: (rules.flatMap NdpRule.words ++ [['}']]))
  read : IsWord hostInterface → (∀ tapName ∈ ranges, IsWord tapName) →
    ∃ rules, readNdppdConf conf = some (hostInterface, rules) ∧
      (rules.map Sigma.fst).Nodup ∧
      ∀ tapName range, ⟨tapName, range⟩ ∈ rules ↔
        ranges.lookup tapName = some range

def NdpState.Lists (hostInterface : String) (state : NdpState) : Prop :=
  ∃ conf, state.conf = some conf ∧
    ListsRanges hostInterface state.ranges conf

theorem IsWord.words_eq {name : String} (hword : IsWord name) :
    words isWhiteSpace name.toList = [name.toList] :=
  words_of_no_separator hword.1 hword.2

theorem readNdpRules_words
    {rules : List NdpRule} (hwords : ∀ rule ∈ rules, IsWord rule.1) :
    readNdpRules (rules.flatMap NdpRule.words ++ [['}']]) = some rules := by
  induction rules with
  | nil => rfl
  | cons rule rest ih =>
      have hrest := ih fun other hother =>
        hwords other (List.mem_cons_of_mem rule hother)
      have hword := (hwords rule List.mem_cons_self).words_eq
      rw [List.flatMap_cons, NdpRule.words, hword]
      simp [readNdpRules, readIpv6Net_text, hrest]

theorem ListsRanges.of_words
    {hostInterface conf : String}
    {ranges : AList fun _ : String => Ipv6Net} {rules : List NdpRule}
    (hperm : rules.Perm ranges.entries)
    (hconf : words isWhiteSpace conf.toList =
      "proxy".toList :: (words isWhiteSpace hostInterface.toList ++
        ['{'] :: (rules.flatMap NdpRule.words ++ [['}']]))) :
    ListsRanges hostInterface ranges conf := by
  refine ⟨⟨rules, hperm, hconf⟩, ?_⟩
  intro hhost hnames
  have hwords : ∀ rule ∈ rules, IsWord rule.1 := by
    intro rule hrule
    exact hnames rule.1 (AList.mem_keys.mpr
      (List.mem_map_of_mem (hperm.mem_iff.mp hrule)))
  refine ⟨rules, ?_, ?_, ?_⟩
  · rw [readNdppdConf, hconf, hhost.words_eq]
    simp [readNdpRules_words hwords]
  · exact (hperm.map Sigma.fst).nodup_iff.mpr ranges.nodupKeys
  · intro tapName range
    rw [hperm.mem_iff, ← AList.mem_lookup_iff]
    rfl

/-! ## The words of a written file -/

theorem words_ndpRule (rule : NdpRule) (rest : List Char) :
    words isWhiteSpace ((ndpRule rule).toList ++ rest) =
      rule.words ++ words isWhiteSpace rest := by
  have htext : (ndpRule rule).toList ++ rest =
      "    rule".toList ++ ' ' :: ((ipv6NetText rule.2).toList ++
        ' ' :: ("\x7b\n        iface".toList ++ ' ' :: (rule.1.toList ++
          '\n' :: ("    \x7d".toList ++ '\n' :: rest)))) := by
    simp [ndpRule, toString, String.toList_append]
  have hrule : words isWhiteSpace "    rule".toList = ["rule".toList] := by
    decide
  have hiface : words isWhiteSpace "\x7b\n        iface".toList =
      [['{'], "iface".toList] := by
    decide
  have hclosing : words isWhiteSpace "    \x7d".toList = [['}']] := by
    decide
  have hspace : isWhiteSpace ' ' = true := by
    decide
  have hline : isWhiteSpace '\n' = true := by
    decide
  rw [htext, words_append_separator hspace, words_append_separator hspace,
    words_append_separator hspace, words_append_separator hline,
    words_append_separator hline, hrule, hiface, hclosing,
    words_ipv6NetText, NdpRule.words]
  simp

theorem words_flatMap_ndpRule (rules : List NdpRule) (rest : List Char) :
    words isWhiteSpace
        (rules.flatMap (fun rule => (ndpRule rule).toList) ++ rest) =
      rules.flatMap NdpRule.words ++ words isWhiteSpace rest := by
  induction rules with
  | nil => rfl
  | cons rule others ih =>
      rw [List.flatMap_cons, List.append_assoc, words_ndpRule, ih,
        List.flatMap_cons, List.append_assoc]

theorem toList_foldl_ndpRule (config : String) (rules : List NdpRule) :
    (rules.foldl (fun config rule => config ++ ndpRule rule)
        config).toList =
      config.toList ++ rules.flatMap fun rule => (ndpRule rule).toList := by
  induction rules generalizing config with
  | nil => simp
  | cons rule others ih =>
      rw [List.foldl_cons, ih, String.toList_append, List.append_assoc,
        List.flatMap_cons]

theorem words_ndppdConf (hostInterface : String) (rules : List NdpRule) :
    words isWhiteSpace (ndppdConf hostInterface rules).toList =
      "proxy".toList :: (words isWhiteSpace hostInterface.toList ++
        ['{'] :: (rules.flatMap NdpRule.words ++ [['}']])) := by
  have htext : (ndppdConf hostInterface rules).toList =
      "proxy".toList ++ ' ' :: (hostInterface.toList ++
        ' ' :: (['{'] ++ '\n' ::
          (rules.flatMap (fun rule => (ndpRule rule).toList) ++
            "\x7d\n".toList))) := by
    rw [ndppdConf, String.toList_append, toList_foldl_ndpRule]
    simp [toString, String.toList_append]
  have hproxy : words isWhiteSpace "proxy".toList = ["proxy".toList] := by
    decide
  have hopening : words isWhiteSpace ['{'] = [['{']] := by
    decide
  have hclosing : words isWhiteSpace "\x7d\n".toList = [['}']] := by
    decide
  have hspace : isWhiteSpace ' ' = true := by
    decide
  have hline : isWhiteSpace '\n' = true := by
    decide
  rw [htext, words_append_separator hspace, words_append_separator hspace,
    words_append_separator hline, words_flatMap_ndpRule, hproxy, hopening,
    hclosing]
  rfl

theorem NdpState.lists_updateConfig
    (hostInterface : String) (state : NdpState) {outcome : NdpOutcome}
    (hwrites : outcome.writeFailure = none) :
    (state.updateConfig hostInterface outcome).Lists hostInterface := by
  have hperm := outcome.order.perm state.ranges.entries
  unfold updateConfig
  rw [hwrites]
  exact ⟨_, rfl, .of_words hperm (words_ndppdConf hostInterface _)⟩

/-! ## The file and the map -/

/-- The ghost of a call says whether it has written the file, which is the
last thing it does. -/
def writers :
    AtomicPrograms.Protocol NdpCall NdpAction (fun _ => Unit) Unit Bool where
  start _ := false
  next wrote action _ :=
    match action with
    | .updateConfig => true
    | .insert _ _ | .remove _ => wrote
  allowed wrote _ := wrote = false
  admits _ _ := True
  returns wrote _ := wrote = true

theorem NdpCall.program_follows (call : NdpCall) :
    call.program.Follows writers writers.returns (writers.start call) := by
  cases call with
  | addRange tapName range =>
      exact ⟨rfl, fun _ _ => ⟨rfl, fun _ _ => rfl⟩⟩
  | deleteRange tapName =>
      exact ⟨rfl, fun _ _ => ⟨rfl, fun _ _ => rfl⟩⟩

/-- The file is right, or a call that has not written it will do so; when
there has been no call, nothing is known about the file. -/
def Pending (hostInterface : String) (state : NdpState)
    (wrote : List Bool) : Prop :=
  state.Lists hostInterface ∨ wrote = [] ∨ false ∈ wrote

theorem Pending.perm {hostInterface : String} {state : NdpState}
    {wrote reordered : List Bool} (hperm : wrote.Perm reordered)
    (hpending : Pending hostInterface state wrote) :
    Pending hostInterface state reordered := by
  rcases hpending with hlists | hempty | hmem
  · exact .inl hlists
  · subst hempty
    exact .inr (.inl (List.nil_perm.mp hperm))
  · exact .inr (.inr (hperm.mem_iff.mp hmem))

theorem Pending.exec {hostInterface : String} {outcome : NdpOutcome}
    {state reached : NdpState} {action : NdpAction} {wrote : Bool}
    {rest : List Bool} (hwrites : outcome.writeFailure = none)
    (hallowed : wrote = false)
    (hexec : state.exec hostInterface outcome action = some ((), reached)) :
    Pending hostInterface reached
      (writers.next wrote action () :: rest) := by
  subst hallowed
  cases action with
  | insert tapName range => exact .inr (.inr List.mem_cons_self)
  | remove tapName => exact .inr (.inr List.mem_cons_self)
  | updateConfig =>
      left
      cases hexec
      exact state.lists_updateConfig hostInterface hwrites

structure NdpSystem.Kept (hostInterface : String) (system : NdpSystem) :
    Prop where
  follows : Pool.Follows writers system
  pending : Pending hostInterface system.shared (system.ghosts writers)

theorem NdpSystem.Kept.step {hostInterface : String} {system : NdpSystem}
    {event : NdpEvent} (hkept : NdpSystem.Kept hostInterface system)
    (hwrites : event.Writes) :
    NdpSystem.Kept hostInterface
      (NdpSystem.step hostInterface system event) := by
  cases event with
  | call call =>
      constructor
      · exact Pool.call_follows hkept.follows call.program_follows
      · have hghosts : Pool.ghosts writers
            (NdpSystem.step hostInterface system (.call call)) =
              Pool.ghosts writers system ++ [false] :=
          Pool.call_ghosts NdpCall.program system call
        rw [hghosts]
        right
        right
        exact List.mem_append_right _ List.mem_cons_self
  | advance index outcome =>
      have hmeets : Pool.Meets (NdpState.exec hostInterface) writers
          (fun _ outcome _ _ _ => outcome.writeFailure = none)
          (fun _ _ _ _ _ _ => True) system index outcome :=
        fun taken _ => ⟨hwrites, fun _ _ => trivial⟩
      have hafter := Pool.advance_invariant (Pending hostInterface)
        (fun hperm hpending => hpending.perm hperm)
        (fun _ _ _ => trivial) (by
          intro shared outcome wrote rest action response reached hpending
            hallowed hexec hcond hguard
          exact Pending.exec hcond hallowed hexec)
        hkept.follows hkept.pending hmeets
      exact ⟨hafter.1, hafter.2⟩

/-- In every interleaving of the sections of any calls, when all calls have
returned the file lists the map, whatever it was before the first call. -/
theorem ndp_configuration_converges
    (hostInterface : String) (initial : NdpState) (events : List NdpEvent)
    (hwrites : ∀ event ∈ events, event.Writes)
    (hcalls : (run (NdpSystem.step hostInterface) ⟨initial, []⟩
      events).tasks ≠ [])
    (hquiet : (run (NdpSystem.step hostInterface) ⟨initial, []⟩
      events).Quiet) :
    (run (NdpSystem.step hostInterface) ⟨initial, []⟩ events).shared.Lists
      hostInterface := by
  have hstart : NdpSystem.Kept hostInterface ⟨initial, []⟩ := by
    constructor
    · intro task htask
      cases htask
    · exact .inr (.inl rfl)
  have hkept := run_invariant_of_along
    (fun system event hkept hwrites => NdpSystem.Kept.step hkept hwrites)
    hstart (along_of_forall hwrites _)
  rcases hkept.pending with hlists | hempty | hmem
  · exact hlists
  · exact absurd (List.map_eq_nil_iff.mp hempty) hcalls
  · obtain ⟨task, htask, hghost⟩ := List.mem_map.mp hmem
    obtain ⟨value, hresult⟩ := Option.isSome_iff_exists.mp
      (hquiet task htask)
    have hreturns := Task.returns_of_result (hkept.follows task htask)
      hresult
    have hwrote : task.ghost writers = true := hreturns
    rw [hghost] at hwrote
    cases hwrote

def writing : NdpOutcome := ⟨.stored, none⟩

/-- The last call removes the first interface while the first call is
between its sections. -/
def ndpCalls : List NdpEvent :=
  [.call (.addRange "tap-a" ⟨1, 124⟩), .call (.addRange "tap-b" ⟨2, 124⟩),
    .call (.deleteRange "tap-a"), .advance 0 writing, .advance 1 writing,
    .advance 1 writing, .advance 2 writing, .advance 0 writing,
    .advance 2 writing]

theorem ndp_configuration_converges_three_calls :
    (run (NdpSystem.step "eth0") ⟨⟨∅, none⟩, []⟩ ndpCalls).Quiet ∧
      (run (NdpSystem.step "eth0") ⟨⟨∅, none⟩, []⟩ ndpCalls).shared.Lists
        "eth0" ∧
      (run (NdpSystem.step "eth0") ⟨⟨∅, none⟩, []⟩
        ndpCalls).shared.conf.bind readNdppdConf =
          some ("eth0", [⟨"tap-b", ⟨2, 124⟩⟩]) := by
  have hquiet :
      (run (NdpSystem.step "eth0") ⟨⟨∅, none⟩, []⟩ ndpCalls).Quiet := by
    decide
  have hcalls : (run (NdpSystem.step "eth0") ⟨⟨∅, none⟩, []⟩
      ndpCalls).tasks ≠ [] := by
    intro hempty
    have hlength := congrArg List.length hempty
    revert hlength
    decide
  refine ⟨hquiet, ?_, by decide +kernel⟩
  exact ndp_configuration_converges "eth0" ⟨∅, none⟩ ndpCalls
    (by decide) hcalls hquiet

end AlephCvm.Net

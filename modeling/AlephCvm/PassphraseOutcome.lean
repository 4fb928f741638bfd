import AlephCvm.PassphraseHandover

/-!
# What the passphrase decides

Two orders of the same steps.  When the agent has answered before the script
sees the file, the passphrase alone decides how the machine comes up, and its
bytes end as zeros.  When the script does not wait that long, `cryptsetup` may
be given any front of the passphrase.
-/

namespace AlephCvm.GuestInit

open NamedFiles StepRuns AlephCvm.Secrets AlephCvm.Tee

variable {guest : LuksGuest} {value : String} {state after : Handover}

/-! ## After the agent's answer -/

/-- What the file holds and what the script has found out at a stage, when
the agent has done its part. -/
def LuksGuest.Follows (guest : LuksGuest) (file : ℕ) (bytes : Bytes)
    (store : FileStore String UInt8) : UnlockStage → Prop
  | .polling => store.find passphraseFile = some (file, bytes)
  | .found => store.find passphraseFile = some (file, bytes)
  | .reading opened input =>
      store.find passphraseFile = some (file, bytes) ∧
        opened = file ∧ input <+: bytes
  | .read input =>
      store.find passphraseFile = some (file, bytes) ∧ input = bytes
  | .unlocked opened =>
      store.find passphraseFile = some (file, bytes) ∧
        opened = guest.opens bytes
  | .measured opened size =>
      store.find passphraseFile = some (file, bytes) ∧
        opened = guest.opens bytes ∧ size = bytes.length
  | .wiping opened wiped size done =>
      store.find passphraseFile = some (file,
          List.replicate done 0 ++ bytes.drop done) ∧
        opened = guest.opens bytes ∧ wiped = file ∧
        size = bytes.length ∧ done ≤ size
  | .wiped opened =>
      store.find passphraseFile =
          some (file, List.replicate bytes.length 0) ∧
        opened = guest.opens bytes
  | .removed opened =>
      store.contents file = List.replicate bytes.length 0 ∧
        opened = guest.opens bytes
  | .started => store.contents file = List.replicate bytes.length 0 ∧
      guest.opens bytes = true
  | .off => store.contents file = List.replicate bytes.length 0

structure Handover.Settled (guest : LuksGuest) (file : ℕ) (bytes : Bytes)
    (state : Handover) : Prop where
  request : state.request = none
  injected : state.injected = true
  follows : guest.Follows file bytes state.store state.stage
  ran : guest.Ran state.commands state.stage
  off : state.stage = .off → state.commands =
    (guest.guest true (guest.opens bytes)).luksBoot guest.blkdev

theorem Handover.Given.settled
    (hgiven : state.Given guest value) {file : ℕ}
    (hanswered : state.answered = true) (hpolling : state.stage = .polling)
    (hnamed : state.store.names passphraseFile = some file) :
    state.Settled guest file (secretBytes value) := by
  have hrequest : state.request = none := by
    by_contra hsome
    have hawaited := hgiven.awaited (Option.isSome_iff_ne_none.mpr hsome)
    simp [hanswered] at hawaited
  have hplaced := hgiven.placed
  rw [hpolling] at hplaced
  obtain ⟨other, written, hfind, hfills⟩ := hplaced
  have hwhole : written = secretBytes value := by
    apply hfills.whole _ (Or.inr hanswered)
    rintro secret ⟨rest, hsome, -⟩
    rw [hrequest] at hsome
    cases hsome
  have hfile : other = file := by
    have hother := (FileStore.find_eq_some.mp hfind).1
    rw [hnamed] at hother
    exact (Option.some.inj hother).symm
  rw [hwhole, hfile] at hfind
  constructor
  · exact hrequest
  · exact hgiven.closed hrequest
  · rw [hpolling]
    exact hfind
  · exact hgiven.ran
  · intro hoff
    rw [hpolling] at hoff
    cases hoff

variable {file : ℕ} {bytes : Bytes}

theorem Handover.Settled.agentStep
    (hsettled : state.Settled guest file bytes) (step : AgentStep) :
    state.agentStep step = state := by
  cases step <;> simp [Handover.agentStep, hsettled.request,
    hsettled.injected]

theorem Handover.Settled.advance
    (hsettled : state.Settled guest file bytes) {stage : UnlockStage}
    {store : FileStore String UInt8} {commands : List Command}
    (hfollows : guest.Follows file bytes store stage)
    (hran : guest.Ran commands stage)
    (hoff : stage = .off → commands =
      (guest.guest true (guest.opens bytes)).luksBoot guest.blkdev) :
    Handover.Settled guest file bytes { state with
      store := store
      stage := stage
      commands := commands } where
  request := hsettled.request
  injected := hsettled.injected
  follows := hfollows
  ran := hran
  off := hoff

/-- One more byte of the passphrase is a zero. -/
theorem wipe_next (bytes : Bytes) (done : ℕ) :
    (List.replicate done 0 ++ bytes.drop done).take done ++ [0] ++
        (List.replicate done 0 ++ bytes.drop done).drop (done + 1) =
      List.replicate (done + 1) (0 : UInt8) ++ bytes.drop (done + 1) := by
  have hlength : (List.replicate done (0 : UInt8)).length = done :=
    List.length_replicate
  rw [List.take_left' hlength, List.drop_append, hlength,
    List.drop_eq_nil_of_le (by omega), List.nil_append, List.drop_drop,
    List.replicate_succ']
  simp

theorem Handover.Settled.initStep
    (hsettled : state.Settled guest file bytes) (step : InitStep) :
    (state.initStep guest step).Settled guest file bytes := by
  have hfollows := hsettled.follows
  have hran := hsettled.ran
  cases step with
  | poll =>
      simp only [Handover.initStep]
      split
      · rename_i hstage
        rw [hstage] at hfollows hran
        split_ifs
        · exact hsettled.advance hfollows hran (by simp)
        · exact hsettled
      · exact hsettled
  | timeout =>
      simp only [Handover.initStep]
      split
      · rename_i hstage
        rw [hstage] at hfollows hran
        have hnamed := (FileStore.find_eq_some.mp hfollows).1
        rw [if_pos (by rw [hnamed]; rfl)]
        exact hsettled.advance hfollows hran (by simp)
      · exact hsettled
  | openPassphrase =>
      simp only [Handover.initStep]
      split
      · rename_i hstage
        rw [hstage] at hfollows hran
        have hnamed := (FileStore.find_eq_some.mp hfollows).1
        simp only [hnamed]
        exact hsettled.advance ⟨hfollows, rfl, List.nil_prefix⟩ hran
          (by simp)
      · exact hsettled
  | readPassphrase count =>
      simp only [Handover.initStep]
      split
      · rename_i opened input hstage
        rw [hstage] at hfollows hran
        obtain ⟨hfind, rfl, behind, hinput⟩ := hfollows
        have hmore : (state.store.contents opened).drop input.length =
            behind := by
          rw [(FileStore.find_eq_some.mp hfind).2, ← hinput,
            List.drop_left]
        simp only [hmore]
        cases behind with
        | nil =>
            rw [List.append_nil] at hinput
            exact hsettled.advance ⟨hfind, hinput⟩ hran (by simp)
        | cons byte more =>
            have hread : input ++ (byte :: more).take (count + 1) <+:
                bytes := by
              rw [← hinput]
              exact (List.prefix_append_right_inj input).mpr
                (List.take_prefix _ _)
            exact hsettled.advance ⟨hfind, rfl, hread⟩ hran (by simp)
      · exact hsettled
  | luksOpen =>
      simp only [Handover.initStep]
      split
      · rename_i input hstage
        rw [hstage] at hfollows hran
        obtain ⟨hfind, hinput⟩ := hfollows
        have hstarted : state.commands = [.startAgent] := hran
        apply hsettled.advance
        · exact ⟨hfind, by rw [hinput]⟩
        · rw [hstarted]
          rfl
        · simp
      · exact hsettled
  | measure =>
      simp only [Handover.initStep]
      split
      · rename_i opened hstage
        rw [hstage] at hfollows hran
        simp only [hfollows.1]
        exact hsettled.advance ⟨hfollows.1, hfollows.2, rfl⟩ hran (by simp)
      · exact hsettled
  | openWipe =>
      simp only [Handover.initStep]
      split
      · rename_i opened size hstage
        rw [hstage] at hfollows hran
        obtain ⟨hfind, hopened, hsize⟩ := hfollows
        have hnamed := (FileStore.find_eq_some.mp hfind).1
        simp only [hnamed]
        apply hsettled.advance
        · exact ⟨hfind, hopened, rfl, hsize, Nat.zero_le size⟩
        · exact hran
        · simp
      · exact hsettled
  | wipe =>
      simp only [Handover.initStep]
      split
      · rename_i opened wiped size done hstage
        rw [hstage] at hfollows hran
        obtain ⟨hfind, hopened, rfl, hsize, hdone⟩ := hfollows
        split_ifs with hmore
        · apply hsettled.advance
          · refine ⟨?_, hopened, rfl, hsize, by omega⟩
            rw [FileStore.find_writeAt_self hfind, List.length_singleton,
              wipe_next]
          · exact hran
          · simp
        · have hall : done = bytes.length := by omega
          rw [hall, List.drop_length, List.append_nil] at hfind
          exact hsettled.advance ⟨hfind, hopened⟩ hran (by simp)
      · exact hsettled
  | remove =>
      simp only [Handover.initStep]
      split
      · rename_i opened hstage
        rw [hstage] at hfollows hran
        have hzeros := (FileStore.find_eq_some.mp hfollows.1).2
        exact hsettled.advance ⟨hzeros, hfollows.2⟩ hran (by simp)
      · exact hsettled
  | proceed =>
      simp only [Handover.initStep]
      split
      · rename_i hstage
        rw [hstage] at hfollows hran
        have hopens : guest.opens bytes = true := hfollows.2.symm
        have hcommands : state.commands = [.startAgent, guest.opening] :=
          hran
        split_ifs with hmounts
        · apply hsettled.advance
          · exact ⟨hfollows.1, hopens⟩
          · refine ⟨hmounts, ?_⟩
            simp [LuksGuest.luksBoot_guest, hcommands, hmounts]
          · simp
        · apply hsettled.advance
          · exact hfollows.1
          · refine ⟨true, true, ?_⟩
            simp [LuksGuest.luksBoot_guest, hcommands, hmounts]
          · intro _
            simp [LuksGuest.luksBoot_guest, hcommands, hmounts, hopens]
      · rename_i hstage
        rw [hstage] at hfollows hran
        have hopens : guest.opens bytes = false := hfollows.2.symm
        have hcommands : state.commands = [.startAgent, guest.opening] :=
          hran
        apply hsettled.advance
        · exact hfollows.1
        · refine ⟨true, false, ?_⟩
          simp [LuksGuest.luksBoot_guest, hcommands]
        · intro _
          simp [LuksGuest.luksBoot_guest, hcommands, hopens]
      · exact hsettled

theorem Handover.Settled.step
    (hsettled : state.Settled guest file bytes) (event : HandoverEvent) :
    (state.step guest event).Settled guest file bytes := by
  cases event with
  | agent step =>
      simp only [Handover.step, hsettled.agentStep, ite_self]
      exact hsettled
  | init step => exact hsettled.initStep step

theorem Handover.Settled.finished
    (hsettled : state.Settled guest file bytes)
    (hfinished : state.stage = .started ∨ state.stage = .off) :
    state.commands =
        (guest.guest true (guest.opens bytes)).luksBoot guest.blkdev ∧
      state.store.contents file = List.replicate bytes.length 0 := by
  have hfollows := hsettled.follows
  have hran := hsettled.ran
  rcases hfinished with hstarted | hoff
  · rw [hstarted] at hfollows hran
    rw [hfollows.2]
    exact ⟨hran.2, hfollows.1⟩
  · rw [hoff] at hfollows
    exact ⟨hsettled.off hoff, hfollows⟩

/-! ## The script on its own -/

def HandoverEvent.ofScript : HandoverEvent → Prop
  | .agent _ => False
  | .init _ => True

/-- The script takes a step that leads to this state. -/
theorem Handover.scriptStep
    (step : InitStep) (hstep : state.initStep guest step = after) :
    Reaches (Handover.step guest) HandoverEvent.ofScript state after := by
  have htaken : HandoverEvent.ofScript (.init step) := trivial
  rw [← hstep]
  exact .single htaken

theorem Handover.readsFile
    (hpolling : state.stage = .polling)
    (hfind : state.store.find passphraseFile = some (file, bytes)) :
    Reaches (Handover.step guest) HandoverEvent.ofScript state
      { state with stage := .read bytes } := by
  obtain ⟨hnamed, hcontents⟩ := FileStore.find_eq_some.mp hfind
  have hfound : Reaches (Handover.step guest) HandoverEvent.ofScript state
      { state with stage := .found } :=
    Handover.scriptStep .poll (by simp [Handover.initStep, hpolling, hnamed])
  have hopened : Reaches (Handover.step guest) HandoverEvent.ofScript
      { state with stage := .found }
      { state with stage := .reading file [] } :=
    Handover.scriptStep .openPassphrase
      (by simp [Handover.initStep, hnamed])
  refine (hfound.trans hopened).trans ?_
  cases hbytes : bytes with
  | nil =>
      exact Handover.scriptStep (.readPassphrase 0)
        (by simp [Handover.initStep, hcontents, hbytes])
  | cons byte rest =>
      have hall : Reaches (Handover.step guest) HandoverEvent.ofScript
          { state with stage := .reading file [] }
          { state with stage := .reading file bytes } :=
        Handover.scriptStep (.readPassphrase bytes.length)
          (by simp [Handover.initStep, hcontents, hbytes])
      rw [← hbytes]
      exact hall.trans (Handover.scriptStep (.readPassphrase 0)
        (by simp [Handover.initStep, hcontents]))

theorem Handover.wipesFile
    {opened : Bool} {size left done : ℕ} (hleft : done + left = size)
    (hwiping : state.stage = .wiping opened file size done) :
    ∃ store, Reaches (Handover.step guest) HandoverEvent.ofScript state
      { state with store := store, stage := .wiped opened } := by
  induction left generalizing state done with
  | zero =>
      refine ⟨state.store, Handover.scriptStep .wipe ?_⟩
      simp only [Handover.initStep, hwiping]
      rw [if_neg (by omega)]
  | succ left ih =>
      have hwritten : Reaches (Handover.step guest) HandoverEvent.ofScript
          state { state with
            store := state.store.writeAt file done [0]
            stage := .wiping opened file size (done + 1) } := by
        apply Handover.scriptStep .wipe
        simp only [Handover.initStep, hwiping]
        rw [if_pos (by omega)]
      have hrest : done + 1 + left = size := by omega
      have hnext : Handover.stage { state with
          store := state.store.writeAt file done [0]
          stage := .wiping opened file size (done + 1) } =
            .wiping opened file size (done + 1) := rfl
      obtain ⟨store, hwiped⟩ := ih hrest hnext
      exact ⟨store, hwritten.trans hwiped⟩

theorem Handover.proceeds
    {opened : Bool} (hwiped : state.stage = .wiped opened) :
    ∃ last, Reaches (Handover.step guest) HandoverEvent.ofScript state
        last ∧
      last.stage = if opened && guest.mounts then .started else .off := by
  have hremoved : Reaches (Handover.step guest) HandoverEvent.ofScript
      state { state with
        store := state.store.remove passphraseFile
        stage := .removed opened } :=
    Handover.scriptStep .remove (by simp [Handover.initStep, hwiped])
  refine ⟨_, hremoved.trans (Handover.scriptStep .proceed rfl), ?_⟩
  cases opened with
  | true => cases hmounts : guest.mounts <;> simp [Handover.initStep, hmounts]
  | false => simp [Handover.initStep]

/-- Whatever it has read, the script gets to an end. -/
theorem Handover.unlocks
    {input : Bytes} (hread : state.stage = .read input)
    (hfind : state.store.find passphraseFile = some (file, bytes)) :
    ∃ last, Reaches (Handover.step guest) HandoverEvent.ofScript state
        last ∧
      last.stage = if guest.opens input && guest.mounts then .started
        else .off := by
  have hnamed := (FileStore.find_eq_some.mp hfind).1
  have hunlocked : Reaches (Handover.step guest) HandoverEvent.ofScript
      state { state with
        stage := .unlocked (guest.opens input)
        commands := state.commands ++ [guest.opening] } :=
    Handover.scriptStep .luksOpen (by simp [Handover.initStep, hread])
  have hmeasured : Reaches (Handover.step guest) HandoverEvent.ofScript
      state { state with
        stage := .measured (guest.opens input) bytes.length
        commands := state.commands ++ [guest.opening] } :=
    hunlocked.trans
      (Handover.scriptStep .measure (by simp [Handover.initStep, hfind]))
  have hwiping : Reaches (Handover.step guest) HandoverEvent.ofScript
      state { state with
        stage := .wiping (guest.opens input) file bytes.length 0
        commands := state.commands ++ [guest.opening] } :=
    hmeasured.trans
      (Handover.scriptStep .openWipe (by simp [Handover.initStep, hnamed]))
  have hstage : Handover.stage { state with
      stage := .wiping (guest.opens input) file bytes.length 0
      commands := state.commands ++ [guest.opening] } =
        .wiping (guest.opens input) file bytes.length 0 := rfl
  obtain ⟨store, hwiped⟩ :=
    Handover.wipesFile (Nat.zero_add bytes.length) hstage
  have hafter : Handover.stage { state with
      store := store
      stage := .wiped (guest.opens input)
      commands := state.commands ++ [guest.opening] } =
        .wiped (guest.opens input) := rfl
  obtain ⟨last, hproceeds, hlast⟩ := Handover.proceeds hafter
  exact ⟨last, (hwiping.trans hwiped).trans hproceeds, hlast⟩

/-- Once the agent has answered and the script still waits, nothing that
happens later changes what the passphrase decides: `cryptsetup` gets all of
it, and when the script is through, its bytes are zeros.  It gets there
without further requests. -/
theorem answered_passphrase_decides
    (guest : LuksGuest)
    (events : List HandoverEvent)
    (file : ℕ)
    (hanswered : (Handover.reached guest events).answered = true)
    (hpolling : (Handover.reached guest events).stage = .polling)
    (hnamed : (Handover.reached guest events).store.names passphraseFile =
      some file) :
    ∃ value, Posted events passphraseFile value ∧
      (∀ later,
        (∀ input, (Handover.reached guest (events ++ later)).stage =
            .read input → input = secretBytes value) ∧
        ((Handover.reached guest (events ++ later)).stage = .started ∨
            (Handover.reached guest (events ++ later)).stage = .off →
          (Handover.reached guest (events ++ later)).commands =
              (guest.guest true
                (guest.opens (secretBytes value))).luksBoot guest.blkdev ∧
            (Handover.reached guest (events ++ later)).store.contents file =
              List.replicate (secretBytes value).length 0)) ∧
      ∃ later, (∀ event ∈ later, event.ofScript) ∧
        (Handover.reached guest (events ++ later)).stage =
          if guest.opens (secretBytes value) && guest.mounts then .started
          else .off := by
  rcases Handover.known_after guest events with
    hunopened | ⟨value, hposted, hgiven⟩
  · rw [hunopened.unnamed] at hnamed
    cases hnamed
  · refine ⟨value, hposted, ?_, ?_⟩
    · intro later
      have hbegin := hgiven.settled hanswered hpolling hnamed
      have hsettled : (Handover.reached guest (events ++ later)).Settled
          guest file (secretBytes value) := by
        rw [Handover.reached, run_append]
        exact run_invariant (fun state event hstill => hstill.step event)
          later hbegin
      refine ⟨?_, hsettled.finished⟩
      intro input hread
      have hfollows := hsettled.follows
      rw [hread] at hfollows
      exact hfollows.2
    · have hfind := (hgiven.settled hanswered hpolling hnamed).follows
      rw [hpolling] at hfind
      have hreads : Reaches (Handover.step guest) HandoverEvent.ofScript
          (Handover.reached guest events)
          { Handover.reached guest events with
            stage := .read (secretBytes value) } :=
        Handover.readsFile hpolling hfind
      have hread : Handover.stage { Handover.reached guest events with
          stage := .read (secretBytes value) } =
            .read (secretBytes value) := rfl
      obtain ⟨last, hunlocks, hlast⟩ := Handover.unlocks hread hfind
      obtain ⟨later, hscript, hrun⟩ := hreads.trans hunlocks
      refine ⟨later, hscript, ?_⟩
      rw [Handover.reached, run_append]
      rw [Handover.reached] at hrun
      rw [hrun, hlast]

/-! ## When the script does not wait for the answer -/

/-- The agent goes on with the request that it has taken. -/
def HandoverEvent.ofRequest : HandoverEvent → Prop
  | .agent (.post _) => False
  | .agent _ => True
  | .init _ => False

theorem Handover.requestStep
    (hpolling : state.stage = .polling) (step : AgentStep)
    (hrequest : HandoverEvent.ofRequest (.agent step))
    (hstep : state.agentStep step = after) :
    Reaches (Handover.step guest) HandoverEvent.ofRequest state after := by
  have htaken : state.step guest (.agent step) = after := by
    simp [Handover.step, hpolling, hstep]
  rw [← htaken]
  exact .single hrequest

/-- The secrets that come before another one in the map. -/
theorem Handover.writesEarlier
    (earlier : List (String × String)) {rest : List (String × String)}
    (hrequest : state.request = some ⟨none, earlier ++ rest⟩)
    (hpolling : state.stage = .polling) :
    ∃ store, Reaches (Handover.step guest) HandoverEvent.ofRequest state
      { state with store := store, request := some ⟨none, rest⟩ } := by
  induction earlier generalizing state with
  | nil =>
      refine ⟨state.store, ?_⟩
      rw [List.nil_append] at hrequest
      rw [← hrequest]
      exact .refl state
  | cons secret earlier ih =>
      obtain ⟨key, text⟩ := secret
      have hall : (secretBytes text).take ((secretBytes text).length + 1) =
          secretBytes text :=
        List.take_of_length_le (by omega)
      have hopened : Reaches (Handover.step guest) HandoverEvent.ofRequest
          state { state with
            store := (state.store.create key).2
            request := some ⟨some ⟨(state.store.create key).1, 0,
              secretBytes text⟩, earlier ++ rest⟩ } :=
        Handover.requestStep hpolling (.openSecret true) trivial
          (by simp [Handover.agentStep, hrequest])
      have hwritten : Reaches (Handover.step guest) HandoverEvent.ofRequest
          state { state with
            store := (state.store.create key).2.writeAt
              (state.store.create key).1 0 (secretBytes text)
            request := some ⟨some ⟨(state.store.create key).1,
              (secretBytes text).length, []⟩, earlier ++ rest⟩ } :=
        hopened.trans (Handover.requestStep hpolling
          (.writeSecret (secretBytes text).length) trivial
          (by simp [Handover.agentStep, hall]))
      have hclosed : Reaches (Handover.step guest) HandoverEvent.ofRequest
          state { state with
            store := (state.store.create key).2.writeAt
              (state.store.create key).1 0 (secretBytes text)
            request := some ⟨none, earlier ++ rest⟩ } :=
        hwritten.trans (Handover.requestStep hpolling .closeSecret trivial
          (by simp [Handover.agentStep]))
      have hrest : Handover.request { state with
          store := (state.store.create key).2.writeAt
            (state.store.create key).1 0 (secretBytes text)
          request := some ⟨none, earlier ++ rest⟩ } =
            some ⟨none, earlier ++ rest⟩ := rfl
      obtain ⟨store, hearlier⟩ := ih hrest hpolling
      exact ⟨store, hclosed.trans hearlier⟩

/-- The agent has written this much of the passphrase. -/
theorem Handover.writesFront
    {text : String} {rest : List (String × String)}
    (hrequest : state.request =
      some ⟨none, (passphraseFile, text) :: rest⟩)
    (hpolling : state.stage = .polling)
    (hfront : bytes <+: secretBytes text) :
    ∃ last file, Reaches (Handover.step guest) HandoverEvent.ofRequest
        state last ∧
      last.stage = .polling ∧
      last.store.find passphraseFile = some (file, bytes) := by
  have hopened : Reaches (Handover.step guest) HandoverEvent.ofRequest
      state { state with
        store := (state.store.create passphraseFile).2
        request := some ⟨some ⟨(state.store.create passphraseFile).1, 0,
          secretBytes text⟩, rest⟩ } :=
    Handover.requestStep hpolling (.openSecret true) trivial
      (by simp [Handover.agentStep, hrequest])
  have hfind : (state.store.create passphraseFile).2.find passphraseFile =
      some ((state.store.create passphraseFile).1, []) :=
    FileStore.find_create_self passphraseFile
  cases hbytes : bytes with
  | nil => exact ⟨_, _, hopened, hpolling, hfind⟩
  | cons byte more =>
      obtain ⟨behind, hbehind⟩ := hfront
      have hpiece : (secretBytes text).take (more.length + 1) =
          byte :: more := by
        rw [← hbehind, hbytes, ← List.length_cons, List.take_left]
      have hwritten : Reaches (Handover.step guest) HandoverEvent.ofRequest
          state { state with
            store := (state.store.create passphraseFile).2.writeAt
              (state.store.create passphraseFile).1 0 (byte :: more)
            request := some ⟨some ⟨(state.store.create passphraseFile).1,
              more.length + 1, (secretBytes text).drop (more.length + 1)⟩,
              rest⟩ } :=
        hopened.trans (Handover.requestStep hpolling
          (.writeSecret more.length) trivial
          (by simp [Handover.agentStep, hpiece]))
      refine ⟨_, (state.store.create passphraseFile).1, hwritten, hpolling,
        ?_⟩
      simpa using FileStore.find_writeAt_self hfind 0 (byte :: more)

def HandoverEvent.OnlyPosts (arrival : Arrival) (event : HandoverEvent) :
    Prop :=
  ∀ other, event = .agent (.post other) → other = arrival

theorem HandoverEvent.ofRequest.onlyPosts
    {event : HandoverEvent} (hrequest : event.ofRequest)
    (arrival : Arrival) : event.OnlyPosts arrival := by
  rintro other rfl
  exact hrequest.elim

theorem HandoverEvent.ofScript.onlyPosts
    {event : HandoverEvent} (hscript : event.ofScript)
    (arrival : Arrival) : event.OnlyPosts arrival := by
  rintro other rfl
  exact hscript.elim

/-- What `cryptsetup` is given when the script does not wait for the answer
of the agent: any front of the injected passphrase, and nothing else. -/
theorem luksOpen_input_iff
    (guest : LuksGuest)
    (arrival : Arrival)
    (value : String)
    (input : Bytes)
    (hbody : bodyError arrival.secrets = none)
    (hdir : arrival.dirCreated = true)
    (hsecret : (passphraseFile, value) ∈ arrival.secrets) :
    (∃ events, (∀ event ∈ events, event.OnlyPosts arrival) ∧
        (Handover.reached guest events).stage = .read input) ↔
      input <+: secretBytes value := by
  constructor
  · rintro ⟨events, hposts, hread⟩
    rcases Handover.known_after guest events with
      hunopened | ⟨found, ⟨other, hpost, -, hfound⟩, hgiven⟩
    · have hstage := hunopened.stage
      simp [hread] at hstage
    · have hplaced := hgiven.placed
      rw [hread] at hplaced
      rw [hposts _ hpost other rfl] at hfound
      have hsame := List.inj_on_of_nodup_map (nodup_arrival_keys arrival)
        hfound hsecret rfl
      rw [← (Prod.mk.inj hsame).2]
      exact hplaced.1
  · intro hfront
    obtain ⟨earlier, rest, hsplit⟩ := List.append_of_mem hsecret
    have hposted : Reaches (Handover.step guest)
        (HandoverEvent.OnlyPosts arrival) .fresh { Handover.fresh with
          request := some ⟨none, arrival.secrets⟩ } := by
      have htaken : Handover.fresh.step guest (.agent (.post arrival)) =
          { Handover.fresh with
            request := some ⟨none, arrival.secrets⟩ } := by
        simp [Handover.step, Handover.agentStep, Handover.fresh, hbody,
          hdir]
      rw [← htaken]
      exact .single (by
        intro other hother
        cases hother
        rfl)
    have hrequest : Handover.request { Handover.fresh with
        request := some ⟨none, arrival.secrets⟩ } =
          some ⟨none, earlier ++ (passphraseFile, value) :: rest⟩ := by
      rw [hsplit]
    obtain ⟨store, hearlier⟩ : ∃ store, Reaches (Handover.step guest)
        HandoverEvent.ofRequest _ _ :=
      Handover.writesEarlier earlier hrequest rfl
    have hnext : Handover.request { Handover.fresh with
        store := store
        request := some ⟨none, (passphraseFile, value) :: rest⟩ } =
          some ⟨none, (passphraseFile, value) :: rest⟩ := rfl
    obtain ⟨last, file, hwritten, hpolling, hfind⟩ :=
      @Handover.writesFront guest _ _ _ _ hnext rfl hfront
    have hreads : Reaches (Handover.step guest) HandoverEvent.ofScript last
        { last with stage := .read input } :=
      Handover.readsFile hpolling hfind
    obtain ⟨events, honly, hrun⟩ := ((hposted.trans
      (hearlier.mono fun _ hevent => hevent.onlyPosts arrival)).trans
      (hwritten.mono fun _ hevent => hevent.onlyPosts arrival)).trans
      (hreads.mono fun _ hevent => hevent.onlyPosts arrival)
    refine ⟨events, honly, ?_⟩
    rw [Handover.reached, hrun]

/-! ## A sample passphrase -/

def sampleVolume : LuksGuest where
  blkdev := "/dev/vda"
  opens := fun input => input == secretBytes "hunter2"
  mounts := true
  rootfsHasInit := true

def passphrasePost : Arrival :=
  ⟨⟨secretsMap [("luks_passphrase", "hunter2")]⟩, .stored, true,
    fun _ => .written⟩

theorem luksOpen_input_of_hunter2 :
    (∃ events, (∀ event ∈ events, event.OnlyPosts passphrasePost) ∧
        (Handover.reached sampleVolume events).stage = .read []) ∧
      ∃ events, (∀ event ∈ events, event.OnlyPosts passphrasePost) ∧
        (Handover.reached sampleVolume events).stage =
          .read (secretBytes "hunt") := by
  have hinputs : ∀ input, input <+: secretBytes "hunter2" →
      ∃ events, (∀ event ∈ events, event.OnlyPosts passphrasePost) ∧
        (Handover.reached sampleVolume events).stage = .read input :=
    fun input hfront => (luksOpen_input_iff sampleVolume passphrasePost
      "hunter2" input (by decide +kernel) rfl (by decide +kernel)).mpr hfront
  exact ⟨hinputs [] List.nil_prefix,
    hinputs (secretBytes "hunt") (by decide +kernel)⟩

def answeredPost : List HandoverEvent :=
  [.agent (.post passphrasePost), .agent (.openSecret true),
    .agent (.writeSecret 2), .agent (.writeSecret 9), .agent .closeSecret,
    .agent .finish]

theorem posted_answeredPost
    {value : String} (hposted : Posted answeredPost passphraseFile value) :
    value = "hunter2" := by
  obtain ⟨arrival, hpost, -, hsecret⟩ := hposted
  simp only [answeredPost, List.mem_cons, HandoverEvent.agent.injEq,
    AgentStep.post.injEq, reduceCtorEq, List.not_mem_nil,
    or_false] at hpost
  rw [hpost] at hsecret
  have hsecrets : passphrasePost.secrets = [(passphraseFile, "hunter2")] := by
    decide +kernel
  rw [hsecrets, List.mem_singleton] at hsecret
  exact (Prod.mk.inj hsecret).2

theorem answered_passphrase_decides_of_hunter2 :
    (∀ later, (Handover.reached sampleVolume
        (answeredPost ++ later)).stage = .started →
      (Handover.reached sampleVolume (answeredPost ++ later)).commands =
          (sampleVolume.guest true true).luksBoot "/dev/vda" ∧
        (Handover.reached sampleVolume
          (answeredPost ++ later)).store.contents 0 =
            List.replicate 7 0) ∧
      ∃ later, (∀ event ∈ later, event.ofScript) ∧
        (Handover.reached sampleVolume (answeredPost ++ later)).stage =
          .started := by
  obtain ⟨value, hposted, hlater, later, hscript, hend⟩ :=
    answered_passphrase_decides sampleVolume answeredPost 0
      (by decide +kernel) (by decide +kernel) (by decide +kernel)
  have hopens : sampleVolume.opens (secretBytes "hunter2") = true := by
    decide +kernel
  have hlength : (secretBytes "hunter2").length = 7 := by
    decide +kernel
  rw [posted_answeredPost hposted] at hlater hend
  rw [hopens] at hlater hend
  rw [hlength] at hlater
  exact ⟨fun later hstarted => (hlater later).2 (Or.inl hstarted), later,
    hscript, hend⟩

end AlephCvm.GuestInit

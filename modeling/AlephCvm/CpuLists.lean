import Mathlib.Data.List.Sort
import Mathlib.Data.List.TakeWhile
import AlephCvm.DecimalText
import AlephCvm.NumaAllocator
import AlephCvm.TextScanning

/-!
# CPU lists

Model of `parse_cpulist`, against the rendering of a CPU set.  The loop that
renders a set walks over its runs of consecutive ids; the runs are written in
increasing order with at least one id missing between them, and reading them
gives the set back.
-/

namespace AlephCvm.Numa

open ResultContext
open Qemu (trimText)

/-! ## Reading a list -/

/-- `str::parse::<u32>`. -/
def parseU32 (text : String) : Except String UInt32 :=
  match DecimalText.parse UInt32.size text.toList with
  | .ok number => .ok (UInt32.ofNat number)
  | .error failure => .error failure.describe

/-- `str::split_once`. -/
def splitOnce (separator : Char) (text : String) : Option (String × String) :=
  match text.toList.span (· ≠ separator) with
  | (_, []) => none
  | (front, _ :: back) => some (String.ofList front, String.ofList back)

/-- `lo..=hi`. -/
def cpuRange (lo hi : UInt32) : List UInt32 :=
  (List.range (hi.toNat + 1 - lo.toNat)).map fun offset =>
    UInt32.ofNat (lo.toNat + offset)

def insertCpu (cpu : UInt32) : List UInt32 → List UInt32
  | [] => [cpu]
  | first :: rest =>
      if cpu < first then cpu :: first :: rest
      else if cpu = first then first :: rest
      else first :: insertCpu cpu rest

theorem mem_insertCpu {cpu other : UInt32} {cpus : List UInt32} :
    other ∈ insertCpu cpu cpus ↔ other = cpu ∨ other ∈ cpus := by
  induction cpus with
  | nil => simp [insertCpu]
  | cons first rest ih =>
      unfold insertCpu
      split_ifs with hlt heq
      · rw [List.mem_cons]
      · subst heq
        simp
      · rw [List.mem_cons, ih, List.mem_cons]
        exact or_left_comm

theorem pairwise_insertCpu (cpu : UInt32) {cpus : List UInt32}
    (hsorted : cpus.Pairwise (· < ·)) :
    (insertCpu cpu cpus).Pairwise (· < ·) := by
  induction cpus with
  | nil => simp [insertCpu]
  | cons first rest ih =>
      obtain ⟨hfirst, hrest⟩ := List.pairwise_cons.mp hsorted
      unfold insertCpu
      split_ifs with hlt heq
      · refine List.pairwise_cons.mpr ⟨?_, hsorted⟩
        intro other hother
        rcases List.mem_cons.mp hother with rfl | hlater
        · exact hlt
        · exact UInt32.lt_trans hlt (hfirst other hlater)
      · exact hsorted
      · refine List.pairwise_cons.mpr ⟨?_, ih hrest⟩
        intro other hother
        rcases mem_insertCpu.mp hother with rfl | hlater
        · exact UInt32.lt_of_le_of_ne (UInt32.not_lt.mp hlt) (Ne.symm heq)
        · exact hfirst other hlater

def CpuSet.empty : CpuSet := ⟨[], .nil⟩

def CpuSet.insert (cpus : CpuSet) (cpu : UInt32) : CpuSet :=
  ⟨insertCpu cpu cpus.val, pairwise_insertCpu cpu cpus.property⟩

def CpuSet.extend (cpus : CpuSet) (more : List UInt32) : CpuSet :=
  more.foldl CpuSet.insert cpus

def parseCpuPart (text : String) : Except String (List UInt32) := do
  let part := trimText text
  match splitOnce '-' part with
  | some (lo, hi) =>
      let lo ← context "invalid cpu range start" (parseU32 lo)
      let hi ← context "invalid cpu range end" (parseU32 hi)
      return cpuRange lo hi
  | none =>
      let cpu ← context "invalid cpu id" (parseU32 part)
      return [cpu]

def parseCpuParts (cpus : CpuSet) : List String → Except String CpuSet
  | [] => .ok cpus
  | part :: rest => do
      let ids ← parseCpuPart part
      parseCpuParts (cpus.extend ids) rest

def parseCpulist (text : String) : Except String CpuSet :=
  parseCpuParts .empty ((text.toList.splitOn ',').map String.ofList)

/-! ## What is read -/

theorem mem_cpuRange {lo hi cpu : UInt32} :
    cpu ∈ cpuRange lo hi ↔ lo ≤ cpu ∧ cpu ≤ hi := by
  have hbound := cpu.toNat_lt
  have hlast := hi.toNat_lt
  unfold cpuRange
  rw [List.mem_map, UInt32.le_iff_toNat_le, UInt32.le_iff_toNat_le]
  constructor
  · rintro ⟨offset, hoffset, rfl⟩
    rw [List.mem_range] at hoffset
    rw [UInt32.toNat_ofNat', Nat.mod_eq_of_lt (by omega)]
    omega
  · rintro ⟨hlo, hhi⟩
    refine ⟨cpu.toNat - lo.toNat, List.mem_range.mpr (by omega), ?_⟩
    rw [Nat.add_sub_cancel' hlo, UInt32.ofNat_toNat]

theorem mem_extend {cpus : CpuSet} {more : List UInt32} {cpu : UInt32} :
    cpu ∈ (cpus.extend more).val ↔ cpu ∈ cpus.val ∨ cpu ∈ more := by
  induction more generalizing cpus with
  | nil => simp [CpuSet.extend]
  | cons first rest ih =>
      have hstep : cpus.extend (first :: rest) =
          (cpus.insert first).extend rest := rfl
      have hinsert : cpu ∈ (cpus.insert first).val ↔
          cpu = first ∨ cpu ∈ cpus.val := mem_insertCpu
      rw [hstep, ih, hinsert, List.mem_cons]
      tauto

/-- Two sets with the same ids are the same list. -/
theorem CpuSet.ext_mem {cpus others : CpuSet}
    (hsame : ∀ cpu, cpu ∈ cpus.val ↔ cpu ∈ others.val) : cpus = others :=
  Subtype.ext (cpus.property.eq_of_mem_iff others.property hsame)

/-- The ids of all parts are collected. -/
theorem parseCpuParts_eq_ok {α : Type} (text : α → String)
    (ids : α → List UInt32) (parts : List α)
    (hparts : ∀ part ∈ parts, parseCpuPart (text part) = .ok (ids part))
    (cpus : CpuSet) :
    ∃ result, parseCpuParts cpus (parts.map text) = .ok result ∧
      ∀ cpu, cpu ∈ result.val ↔
        cpu ∈ cpus.val ∨ ∃ part ∈ parts, cpu ∈ ids part := by
  induction parts generalizing cpus with
  | nil => exact ⟨cpus, rfl, by simp⟩
  | cons part rest ih =>
      have hpart := hparts part List.mem_cons_self
      have hrest : ∀ other ∈ rest,
          parseCpuPart (text other) = .ok (ids other) := by
        intro other hother
        exact hparts other (List.mem_cons_of_mem part hother)
      obtain ⟨result, hresult, hmem⟩ := ih hrest (cpus.extend (ids part))
      refine ⟨result, ?_, ?_⟩
      · simpa only [List.map_cons, parseCpuParts, hpart, bind, Except.bind]
          using hresult
      · intro cpu
        rw [hmem, mem_extend, or_assoc, List.exists_mem_cons_iff]

/-! ## The runs of a set -/

/-- A first and a last id. -/
abbrev CpuRun := UInt32 × UInt32

/-- The runs that the loop of `format_cpuset` flushes. -/
def runsFrom (rangeStart rangeEnd : UInt32) : List UInt32 → List CpuRun
  | [] => [(rangeStart, rangeEnd)]
  | cpu :: rest =>
      if cpu = rangeEnd + 1 then runsFrom rangeStart cpu rest
      else (rangeStart, rangeEnd) :: runsFrom cpu cpu rest

def cpuRuns (cpus : CpuSet) : List CpuRun :=
  match cpus.val with
  | [] => []
  | first :: rest => runsFrom first first rest

def runText (run : CpuRun) : String := formatRange run.1 run.2

theorem runsFrom_ne_nil (rangeStart rangeEnd : UInt32)
    (rest : List UInt32) : runsFrom rangeStart rangeEnd rest ≠ [] := by
  induction rest generalizing rangeStart rangeEnd with
  | nil => simp [runsFrom]
  | cons cpu rest ih =>
      unfold runsFrom
      split_ifs
      · exact ih rangeStart cpu
      · simp

/-- In an increasing list the next id of a run is found without overflow. -/
theorem toNat_succ_of_lt {cpu later : UInt32} (hlt : cpu < later) :
    (cpu + 1).toNat = cpu.toNat + 1 := by
  have hlater := later.toNat_lt
  rw [UInt32.lt_iff_toNat_lt] at hlt
  rw [UInt32.toNat_add, UInt32.toNat_one]
  omega

theorem runs_start_ge {rangeStart rangeEnd : UInt32} {rest : List UInt32}
    (hsorted : (rangeEnd :: rest).Pairwise (· < ·))
    (hstart : rangeStart ≤ rangeEnd) :
    ∀ run ∈ runsFrom rangeStart rangeEnd rest, rangeStart ≤ run.1 := by
  induction rest generalizing rangeStart rangeEnd with
  | nil => simp [runsFrom]
  | cons cpu rest ih =>
      obtain ⟨hnext, hrest⟩ := List.pairwise_cons.mp hsorted
      have hcpu : rangeEnd < cpu := hnext cpu List.mem_cons_self
      have hle : rangeStart ≤ cpu :=
        UInt32.le_trans hstart (UInt32.le_of_lt hcpu)
      unfold runsFrom
      split_ifs
      · exact ih hrest hle
      · intro run hrun
        rcases List.mem_cons.mp hrun with rfl | hlater
        · exact UInt32.le_refl _
        · exact UInt32.le_trans hle (ih hrest (UInt32.le_refl cpu) run hlater)

/-- Runs in increasing order, each with at least one missing id before the
next, that hold exactly the ids of a set. -/
structure CanonicalRuns (cpus : List UInt32) (runs : List CpuRun) : Prop where
  ordered : ∀ run ∈ runs, run.1 ≤ run.2
  gaps : runs.Pairwise fun run later => run.2.toNat + 1 < later.1.toNat
  mem_iff : ∀ cpu, cpu ∈ cpus ↔ ∃ run ∈ runs, run.1 ≤ cpu ∧ cpu ≤ run.2

theorem mem_cpuRange_self {cpu other : UInt32} :
    other ∈ cpuRange cpu cpu ↔ other = cpu := by
  rw [mem_cpuRange]
  constructor
  · intro hboth
    exact UInt32.le_antisymm hboth.2 hboth.1
  · rintro rfl
    exact ⟨UInt32.le_refl other, UInt32.le_refl other⟩

theorem mem_cpuRange_succ {rangeStart rangeEnd cpu other : UInt32}
    (hstart : rangeStart ≤ rangeEnd) (hcpu : rangeEnd < cpu)
    (hconsecutive : cpu = rangeEnd + 1) :
    other ∈ cpuRange rangeStart cpu ↔
      other ∈ cpuRange rangeStart rangeEnd ∨ other = cpu := by
  have hsucc := toNat_succ_of_lt hcpu
  rw [← hconsecutive] at hsucc
  rw [mem_cpuRange, mem_cpuRange, ← UInt32.toNat_inj]
  simp only [UInt32.le_iff_toNat_le] at hstart ⊢
  omega

theorem canonicalRuns_from {rangeStart rangeEnd : UInt32}
    {rest : List UInt32}
    (hsorted : (rangeEnd :: rest).Pairwise (· < ·))
    (hstart : rangeStart ≤ rangeEnd) :
    CanonicalRuns (cpuRange rangeStart rangeEnd ++ rest)
      (runsFrom rangeStart rangeEnd rest) := by
  induction rest generalizing rangeStart rangeEnd with
  | nil =>
      constructor
      · simpa [runsFrom] using hstart
      · simp [runsFrom]
      · intro cpu
        simp [runsFrom, mem_cpuRange]
  | cons cpu rest ih =>
      obtain ⟨hnext, hrest⟩ := List.pairwise_cons.mp hsorted
      have hcpu : rangeEnd < cpu := hnext cpu List.mem_cons_self
      unfold runsFrom
      split_ifs with hconsecutive
      · have hle : rangeStart ≤ cpu :=
          UInt32.le_trans hstart (UInt32.le_of_lt hcpu)
        have hlonger := ih hrest hle
        refine ⟨hlonger.ordered, hlonger.gaps, ?_⟩
        intro other
        rw [← hlonger.mem_iff, List.mem_append, List.mem_append,
          List.mem_cons, mem_cpuRange_succ hstart hcpu hconsecutive, or_assoc]
      · have hlater := ih hrest (UInt32.le_refl cpu)
        refine ⟨?_, ?_, ?_⟩
        · exact List.forall_mem_cons.mpr ⟨hstart, hlater.ordered⟩
        · refine List.pairwise_cons.mpr ⟨?_, hlater.gaps⟩
          intro run hrun
          have hfirst := runs_start_ge hrest (UInt32.le_refl cpu) run hrun
          have hgap : cpu.toNat ≠ rangeEnd.toNat + 1 := by
            rw [← toNat_succ_of_lt hcpu]
            exact fun hsame => hconsecutive (UInt32.toNat_inj.mp hsame)
          rw [UInt32.le_iff_toNat_le] at hfirst
          rw [UInt32.lt_iff_toNat_lt] at hcpu
          show rangeEnd.toNat + 1 < run.1.toNat
          omega
        · intro other
          rw [List.exists_mem_cons_iff, ← hlater.mem_iff, List.mem_append,
            List.mem_append, mem_cpuRange, mem_cpuRange_self, List.mem_cons]

theorem canonicalRuns_cpuRuns (cpus : CpuSet) :
    CanonicalRuns cpus.val (cpuRuns cpus) := by
  obtain ⟨ids, hsorted⟩ := cpus
  cases ids with
  | nil => exact ⟨by simp [cpuRuns], by simp [cpuRuns], by simp [cpuRuns]⟩
  | cons first rest =>
      have hruns := canonicalRuns_from hsorted (UInt32.le_refl first)
      refine ⟨hruns.ordered, hruns.gaps, ?_⟩
      intro cpu
      rw [cpuRuns, ← hruns.mem_iff, List.mem_append, mem_cpuRange_self,
        List.mem_cons]

theorem cpuRuns_ne_nil {cpus : CpuSet} (hnonempty : cpus.val ≠ []) :
    cpuRuns cpus ≠ [] := by
  obtain ⟨ids, hsorted⟩ := cpus
  cases ids with
  | nil => exact absurd rfl hnonempty
  | cons first rest => exact runsFrom_ne_nil first first rest

/-! ## What is written -/

/-- `range_end + 1`. -/
def addOne (rangeEnd : UInt32) : Except Failure UInt32 :=
  if rangeEnd.toNat + 1 < UInt32.size then .ok (rangeEnd + 1)
  else .error (.panicked "attempt to add with overflow")

/-- The loop of `format_cpuset` with its addition checked. -/
def checkedFrom (result : String) (rangeStart rangeEnd : UInt32) :
    List UInt32 → Except Failure String
  | [] => .ok (flushRange result rangeStart rangeEnd)
  | cpu :: rest => do
      let next ← addOne rangeEnd
      if cpu = next then checkedFrom result rangeStart cpu rest
      else checkedFrom (flushRange result rangeStart rangeEnd) cpu cpu rest

def formatCpusetChecked (cpus : CpuSet) : Except Failure String :=
  match cpus.val with
  | [] => .ok ""
  | first :: rest => checkedFrom "" first first rest

theorem addOne_eq_ok {cpu later : UInt32} (hlt : cpu < later) :
    addOne cpu = .ok (cpu + 1) := by
  have hlater := later.toNat_lt
  rw [UInt32.lt_iff_toNat_lt] at hlt
  have hfits : cpu.toNat + 1 < UInt32.size := by
    unfold UInt32.size
    omega
  rw [addOne, if_pos hfits]

theorem checkedFrom_eq_ok (result : String) {rangeStart rangeEnd : UInt32}
    {rest : List UInt32} (hsorted : (rangeEnd :: rest).Pairwise (· < ·)) :
    checkedFrom result rangeStart rangeEnd rest =
      .ok (formatCpusetFrom result rangeStart rangeEnd rest) := by
  induction rest generalizing result rangeStart rangeEnd with
  | nil => rfl
  | cons cpu rest ih =>
      obtain ⟨hnext, hrest⟩ := List.pairwise_cons.mp hsorted
      have hadd := addOne_eq_ok (hnext cpu List.mem_cons_self)
      simp only [checkedFrom, formatCpusetFrom, hadd, bind, Except.bind]
      split_ifs
      · exact ih result hrest
      · exact ih _ hrest

theorem formatCpusetChecked_eq_ok (cpus : CpuSet) :
    formatCpusetChecked cpus = .ok (formatCpuset cpus) := by
  obtain ⟨ids, hsorted⟩ := cpus
  cases ids with
  | nil => rfl
  | cons first rest => exact checkedFrom_eq_ok "" hsorted

/-- The texts of runs, with commas between them. -/
def runsText (runs : List CpuRun) : String :=
  ",".intercalate (runs.map runText)

theorem runText_of_eq {run : CpuRun} (hsame : run.1 = run.2) :
    runText run = toString run.1 :=
  if_pos hsame

theorem runText_of_ne {run : CpuRun} (hne : run.1 ≠ run.2) :
    runText run = toString run.1 ++ String.singleton '-' ++
      toString run.2 :=
  if_neg hne

theorem runText_ne_empty (run : CpuRun) : runText run ≠ "" := by
  by_cases hsame : run.1 = run.2
  · rw [runText_of_eq hsame]
    exact DecimalText.toString_ne_empty run.1.toNat
  · intro hempty
    have htext := congrArg String.toList hempty
    rw [runText_of_ne hsame] at htext
    simp at htext

theorem runsText_concat {flushed : List CpuRun} (hflushed : flushed ≠ [])
    (run : CpuRun) :
    runsText (flushed ++ [run]) = runsText flushed ++ "," ++ runText run := by
  have hmap : flushed.map runText ≠ [] := by simpa using hflushed
  rw [runsText, List.map_append, List.map_singleton,
    String.intercalate_append_of_ne_nil hmap (List.cons_ne_nil _ _),
    String.intercalate_singleton, runsText]

theorem runsText_ne_empty {runs : List CpuRun} (hruns : runs ≠ []) :
    runsText runs ≠ "" := by
  cases runs with
  | nil => exact absurd rfl hruns
  | cons run rest =>
      intro hempty
      have htext := congrArg String.toList hempty
      cases rest with
      | nil =>
          rw [runsText, List.map_singleton, String.intercalate_singleton]
            at hempty
          exact runText_ne_empty run hempty
      | cons next others =>
          simp [runsText] at htext

theorem flushRange_runsText (flushed : List CpuRun)
    (rangeStart rangeEnd : UInt32) :
    flushRange (runsText flushed) rangeStart rangeEnd =
      runsText (flushed ++ [(rangeStart, rangeEnd)]) := by
  by_cases hflushed : flushed = []
  · subst hflushed
    simp [flushRange, runsText, runText]
  · have hnonempty : (runsText flushed).isEmpty = false := by
      rw [String.isEmpty_eq_false_iff]
      exact runsText_ne_empty hflushed
    rw [runsText_concat hflushed, flushRange, hnonempty, if_neg (by simp),
      String.push_eq_append]
    rfl

theorem formatCpusetFrom_runsText (flushed : List CpuRun)
    (rangeStart rangeEnd : UInt32) (rest : List UInt32) :
    formatCpusetFrom (runsText flushed) rangeStart rangeEnd rest =
      runsText (flushed ++ runsFrom rangeStart rangeEnd rest) := by
  induction rest generalizing flushed rangeStart rangeEnd with
  | nil => exact flushRange_runsText flushed rangeStart rangeEnd
  | cons cpu rest ih =>
      unfold formatCpusetFrom runsFrom
      split_ifs
      · exact ih flushed rangeStart cpu
      · rw [flushRange_runsText, ih, List.append_assoc,
          List.singleton_append]

theorem formatCpuset_eq_runsText (cpus : CpuSet) :
    formatCpuset cpus = runsText (cpuRuns cpus) := by
  obtain ⟨ids, hsorted⟩ := cpus
  cases ids with
  | nil => rfl
  | cons first rest => exact formatCpusetFrom_runsText [] first first rest

/-! ## Reading what was written -/

theorem parseU32_toString (number : UInt32) :
    parseU32 (toString number) = .ok number := by
  have hparse : DecimalText.parse UInt32.size (toString number).toList =
      .ok number.toNat :=
    DecimalText.parse_toString number.toNat_lt
  rw [parseU32, hparse]
  simp

theorem runText_symbols (run : CpuRun) :
    ∀ symbol ∈ (runText run).toList,
      symbol ≠ ',' ∧ SplitText.isWhiteSpace symbol = false := by
  have hnumber : ∀ number : UInt32, ∀ symbol ∈ (toString number).toList,
      symbol ≠ ',' ∧ SplitText.isWhiteSpace symbol = false := by
    intro number symbol hsymbol
    refine ⟨?_, DecimalText.toString_no_whitespace number.toNat symbol
      hsymbol⟩
    rintro rfl
    exact DecimalText.not_mem_toString rfl number.toNat hsymbol
  intro symbol hsymbol
  by_cases hsame : run.1 = run.2
  · rw [runText_of_eq hsame] at hsymbol
    exact hnumber _ symbol hsymbol
  · rw [runText_of_ne hsame, String.toList_append, String.toList_append,
      List.mem_append, List.mem_append] at hsymbol
    rcases hsymbol with (hfirst | hdash) | hlast
    · exact hnumber _ symbol hfirst
    · have hequal : symbol = '-' := by simpa using hdash
      subst hequal
      exact ⟨by decide, rfl⟩
    · exact hnumber _ symbol hlast

theorem runsText_no_whitespace (runs : List CpuRun) :
    ∀ symbol ∈ (runsText runs).toList,
      SplitText.isWhiteSpace symbol = false := by
  induction runs with
  | nil => simp [runsText]
  | cons run rest ih =>
      intro symbol hsymbol
      cases rest with
      | nil =>
          rw [runsText, List.map_singleton, String.intercalate_singleton]
            at hsymbol
          exact (runText_symbols run symbol hsymbol).2
      | cons next others =>
          have htext : runsText (run :: next :: others) =
              runText run ++ "," ++ runsText (next :: others) := by
            simp [runsText]
          rw [htext, String.toList_append, String.toList_append,
            List.mem_append, List.mem_append] at hsymbol
          rcases hsymbol with (hrun | hcomma) | hlater
          · exact (runText_symbols run symbol hrun).2
          · have hsame : symbol = ',' := List.mem_singleton.mp hcomma
            rw [hsame]
            decide
          · exact ih symbol hlater

theorem cpuRange_self (cpu : UInt32) : cpuRange cpu cpu = [cpu] := by
  simp [cpuRange]

theorem splitOnce_eq_none {separator : Char} {text : String}
    (hclean : separator ∉ text.toList) : splitOnce separator text = none := by
  have hall : ∀ symbol ∈ text.toList, decide (symbol ≠ separator) = true := by
    intro symbol hsymbol
    simpa using ne_of_mem_of_not_mem hsymbol hclean
  rw [splitOnce, List.span_eq_takeWhile_dropWhile,
    List.dropWhile_eq_nil_iff.2 hall]

theorem splitOnce_append {separator : Char} {front back : String}
    (hclean : separator ∉ front.toList) :
    splitOnce separator (front ++ String.singleton separator ++ back) =
      some (front, back) := by
  have hall : ∀ symbol ∈ front.toList,
      decide (symbol ≠ separator) = true := by
    intro symbol hsymbol
    simpa using ne_of_mem_of_not_mem hsymbol hclean
  have htext : (front ++ String.singleton separator ++ back).toList =
      front.toList ++ separator :: back.toList := by
    simp
  rw [splitOnce, htext, List.span_eq_takeWhile_dropWhile,
    List.takeWhile_append_of_pos hall, List.dropWhile_append_of_pos hall]
  simp

theorem parseCpuPart_runText (run : CpuRun) :
    parseCpuPart (runText run) = .ok (cpuRange run.1 run.2) := by
  have htrim : trimText (runText run) = runText run :=
    Qemu.trimText_of_no_whitespace fun symbol hsymbol =>
      (runText_symbols run symbol hsymbol).2
  have hdash : '-' ∉ (toString run.1).toList :=
    DecimalText.not_mem_toString rfl run.1.toNat
  rw [parseCpuPart, htrim]
  by_cases hsame : run.1 = run.2
  · have hnone := splitOnce_eq_none hdash
    simp only [runText_of_eq hsame, hnone, parseU32_toString, context, bind,
      Except.bind, pure, Except.pure]
    rw [← hsame, cpuRange_self]
  · have hsome : splitOnce '-' (toString run.1 ++
          String.singleton '-' ++ toString run.2) =
        some (toString run.1, toString run.2) :=
      splitOnce_append hdash
    simp only [runText_of_ne hsame, hsome, parseU32_toString, context, bind,
      Except.bind, pure, Except.pure]

theorem splitOn_runsText {runs : List CpuRun} (hruns : runs ≠ []) :
    ((runsText runs).toList.splitOn ',').map String.ofList =
      runs.map runText := by
  have hclean : ∀ text ∈ (runs.map runText).map String.toList,
      ',' ∉ text := by
    intro text htext
    obtain ⟨part, hpart, rfl⟩ := List.mem_map.mp htext
    obtain ⟨run, -, rfl⟩ := List.mem_map.mp hpart
    exact fun hcomma => (runText_symbols run ',' hcomma).1 rfl
  have hnonempty : (runs.map runText).map String.toList ≠ [] := by
    simpa using hruns
  rw [runsText, String.toList_intercalate,
    show ",".toList = [','] from rfl,
    List.splitOn_intercalate ',' hclean hnonempty]
  simp

theorem parseCpulist_formatCpuset {cpus : CpuSet}
    (hnonempty : cpus.val ≠ []) :
    parseCpulist (formatCpuset cpus) = .ok cpus := by
  have hruns := canonicalRuns_cpuRuns cpus
  have hparts : ∀ run ∈ cpuRuns cpus,
      parseCpuPart (runText run) = .ok (cpuRange run.1 run.2) :=
    fun run _ => parseCpuPart_runText run
  obtain ⟨result, hresult, hmem⟩ := parseCpuParts_eq_ok runText
    (fun run => cpuRange run.1 run.2) (cpuRuns cpus) hparts .empty
  have hsame : result = cpus := by
    apply CpuSet.ext_mem
    intro cpu
    rw [hmem, hruns.mem_iff]
    simp [mem_cpuRange, CpuSet.empty]
  rw [parseCpulist, formatCpuset_eq_runsText,
    splitOn_runsText (cpuRuns_ne_nil hnonempty), hresult, hsame]

/-- Reading the text of a set that is not empty gives the set, no addition
overflows on the way to it, and its runs are canonical. -/
theorem cpulist_codec (cpus : CpuSet) (hnonempty : cpus.val ≠ []) :
    parseCpulist (formatCpuset cpus) = .ok cpus ∧
      formatCpusetChecked cpus = .ok (formatCpuset cpus) ∧
      formatCpuset cpus = runsText (cpuRuns cpus) ∧
      CanonicalRuns cpus.val (cpuRuns cpus) :=
  ⟨parseCpulist_formatCpuset hnonempty, formatCpusetChecked_eq_ok cpus,
    formatCpuset_eq_runsText cpus, canonicalRuns_cpuRuns cpus⟩

theorem cpulist_codec_four_runs :
    let cpus : CpuSet := ⟨[0, 1, 2, 5, 8, 9, 4294967295], by decide⟩
    parseCpulist (formatCpuset cpus) = .ok cpus ∧
      formatCpusetChecked cpus = .ok (formatCpuset cpus) ∧
      formatCpuset cpus = runsText (cpuRuns cpus) ∧
      CanonicalRuns cpus.val (cpuRuns cpus) :=
  cpulist_codec _ (by decide)

end AlephCvm.Numa

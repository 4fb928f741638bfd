import Mathlib.Data.List.TakeWhile
import AlephCvm.SplitText

/-!
# Paths of a Unix system as texts

A path is a text whose parts are separated by slashes.  Empty parts and
single dots do not count, except at its beginning; what remains are the
components of the path.  Joining a relative path appends its components,
joining an absolute one forgets the base, and replacing the extension changes
the last component only.  The functions are those of Rust's `std::path`.
-/

namespace UnixPaths

open SplitText

abbrev Path := List Char

inductive Component where
  | rootDir
  | curDir
  | parentDir
  | normal (name : List Char)
  deriving DecidableEq, Repr

/-- A part between slashes; empty parts and single dots are skipped. -/
def component : List Char → Option Component
  | [] => none
  | ['.'] => none
  | ['.', '.'] => some .parentDir
  | name => some (.normal name)

def parts (path : Path) : List (List Char) := path.splitOn '/'

/-- The components of a path that is appended to another one. -/
def steps (path : Path) : List Component := (parts path).filterMap component

def start : List (List Char) → List Component
  | [] :: _ :: _ => [.rootDir]
  | ['.'] :: _ => [.curDir]
  | _ => []

/-- `Path::components`. -/
def components (path : Path) : List Component :=
  start (parts path) ++ steps path

/-- `Path::is_absolute`. -/
def isAbsolute (path : Path) : Bool := path.head? == some '/'

/-- `Path::join`. -/
def join (base path : Path) : Path :=
  if isAbsolute path then path
  else if base = [] ∨ base.getLast? = some '/' then base ++ path
  else base ++ '/' :: path

/-- `Path::file_stem` of a last component: the text before the last dot, or
the whole text when that dot is at its beginning or missing. -/
def fileStem (name : List Char) : List Char :=
  match name.reverse.dropWhile (· != '.') with
  | [] => name
  | _ :: before => if before = [] then name else before.reverse

/-- `Path::with_extension`, which cuts what stands behind the last component
and leaves a path without a last name as it is. -/
def withExtension (path extension : Path) : Path :=
  match (parts path).reverse.dropWhile fun part =>
      (component part).isNone with
  | [] => path
  | last :: front =>
      if last = ['.', '.'] then path
      else ['/'].intercalate
        (front.reverse ++ [fileStem last ++ '.' :: extension])

/-- `Components::as_path` of the parts in front, the nearest one first: what
is skipped at their end is cut off. -/
def asPath (path : Path) (front : List (List Char)) : Path :=
  match front.dropWhile fun part => (component part).isNone with
  | [] =>
      match start (parts path) with
      | [.rootDir] => ['/']
      | [.curDir] => ['.']
      | _ => []
  | kept => ['/'].intercalate kept.reverse

/-- `Path::parent`. -/
def parent (path : Path) : Option Path :=
  match (parts path).reverse.dropWhile fun part =>
      (component part).isNone with
  | [] => if start (parts path) = [.curDir] then some [] else none
  | _ :: front => some (asPath path front)

/-- What stands in front of the last component; the root has no parent. -/
def IsParent (dir : List Component) (path : Path) : Prop :=
  ∃ last, last ≠ .rootDir ∧ components path = dir ++ [last]

/-- The path names an entry of the directory itself. -/
def IsDirectChild (dir path : Path) : Prop :=
  ∃ name, components path = components dir ++ [.normal name]

instance (dir path : Path) : Decidable (IsDirectChild dir path) :=
  match hlast : (components path).getLast? with
  | some (.normal name) => decidable_of_iff
      (components path = components dir ++ [.normal name]) (by
        constructor
        · intro hname
          exact ⟨name, hname⟩
        · intro ⟨other, hother⟩
          rw [hother, List.getLast?_concat, Option.some.injEq] at hlast
          rw [hother, hlast])
  | some .rootDir | some .curDir | some .parentDir | none => .isFalse (by
      intro ⟨other, hother⟩
      rw [hother, List.getLast?_concat] at hlast
      cases hlast)

/-! ## Components -/

theorem component_eq_normal
    {part name : List Char} :
    component part = some (.normal name) ↔
      part = name ∧ part ≠ [] ∧ part ≠ ['.'] ∧ part ≠ ['.', '.'] := by
  unfold component
  split <;> simp_all

theorem start_append
    {front rest other : List (List Char)} (hfront : front ≠ [])
    (hrest : rest ≠ []) (hother : other ≠ []) :
    start (front ++ rest) = start (front ++ other) := by
  obtain ⟨first, behind, rfl⟩ := List.exists_cons_of_ne_nil hfront
  obtain ⟨second, more, rfl⟩ := List.exists_cons_of_ne_nil hrest
  obtain ⟨third, others, rfl⟩ := List.exists_cons_of_ne_nil hother
  cases behind with
  | nil => simp only [List.singleton_append]; unfold start; grind
  | cons next behind => simp only [List.cons_append]; unfold start; grind

theorem start_cases (list : List (List Char)) :
    start list = [.rootDir] ∨ start list = [.curDir] ∨ start list = [] := by
  unfold start
  split <;> simp

theorem parts_ne_nil (path : Path) : parts path ≠ [] :=
  List.splitOn_ne_nil _ _

/-! ## Joining -/

theorem join_of_absolute
    {base path : Path} (habsolute : isAbsolute path = true) :
    join base path = path := by
  simp [join, habsolute]

theorem components_join
    {base path : Path} (hbase : base ≠ [])
    (hrelative : isAbsolute path = false) :
    components (join base path) = components base ++ steps path := by
  unfold join
  rw [hrelative, if_neg Bool.false_ne_true]
  split_ifs with hlast
  · obtain ⟨front, rfl⟩ : ∃ front, base = front ++ ['/'] := by
      rcases hlast with hnil | hlast
      · exact absurd hnil hbase
      · exact List.getLast?_eq_some_iff.mp hlast
    have hbase : parts (front ++ ['/']) = parts front ++ [[]] :=
      List.splitOn_append_cons_self front []
    have hpath : parts (front ++ ['/'] ++ path) =
        parts front ++ parts path := by
      rw [List.append_assoc, List.singleton_append]
      exact List.splitOn_append_cons_self front path
    unfold components steps
    rw [hpath, hbase, start_append (parts_ne_nil front) (parts_ne_nil path)
      (by simp : ([[]] : List (List Char)) ≠ [])]
    simp [component]
  · have hpath : parts (base ++ '/' :: path) = parts base ++ parts path :=
      List.splitOn_append_cons_self base path
    have hstart : start (parts base ++ parts path) = start (parts base) := by
      have hnonempty : parts base ≠ [[]] := by
        intro hempty
        have hback : ['/'].intercalate (parts base) = base :=
          List.intercalate_splitOn '/'
        rw [hempty] at hback
        exact hbase hback.symm
      obtain ⟨first, behind, hparts⟩ :=
        List.exists_cons_of_ne_nil (parts_ne_nil base)
      rw [hparts] at hnonempty ⊢
      cases behind with
      | nil =>
          have hfirst : first ≠ [] := by
            intro hfirst
            exact hnonempty (by rw [hfirst])
          unfold start
          grind
      | cons next behind =>
          rw [← List.append_nil (first :: next :: behind)]
          unfold start
          grind
    unfold components steps
    rw [hpath, hstart, List.filterMap_append, List.append_assoc]

theorem isDirectChild_join_iff
    {base path : Path} (hbase : base ≠ [])
    (hrelative : isAbsolute path = false) :
    IsDirectChild base (join base path) ↔
      ∃ name, steps path = [.normal name] := by
  unfold IsDirectChild
  simp only [components_join hbase hrelative, List.append_cancel_left_eq]

/-! ## Replacing the extension -/

theorem fileStem_subset
    {name : List Char} {symbol : Char} (hsymbol : symbol ∈ fileStem name) :
    symbol ∈ name := by
  unfold fileStem at hsymbol
  split at hsymbol
  · exact hsymbol
  · rename_i dot before hdrop
    split_ifs at hsymbol with hbefore
    · exact hsymbol
    · have hmem : symbol ∈ name.reverse.dropWhile (· != '.') := by
        rw [hdrop]
        exact List.mem_cons_of_mem _ (List.mem_reverse.mp hsymbol)
      exact List.mem_reverse.mp ((List.dropWhile_sublist _).mem hmem)

theorem fileStem_ne_nil
    {name : List Char} (hname : name ≠ []) : fileStem name ≠ [] := by
  unfold fileStem
  split
  · exact hname
  · split_ifs with hbefore
    · exact hname
    · simpa using hbefore

/-- Behind a stem, an extension gives a name. -/
theorem component_extended
    {name extension : List Char} (hname : name ≠ [])
    (hextension : extension ≠ []) :
    component (fileStem name ++ '.' :: extension) =
      some (.normal (fileStem name ++ '.' :: extension)) := by
  have hlength : 3 ≤ (fileStem name ++ '.' :: extension).length := by
    have hstem := List.length_pos_iff.mpr (fileStem_ne_nil hname)
    have hextension := List.length_pos_iff.mpr hextension
    simp only [List.length_append, List.length_cons]
    omega
  generalize fileStem name ++ '.' :: extension = part at hlength ⊢
  apply component_eq_normal.mpr
  refine ⟨rfl, ?_, ?_, ?_⟩
  all_goals
    intro hpart
    rw [hpart] at hlength
    simp at hlength

/-- Skipped parts at the front of a reversed list have no component. -/
theorem filterMap_component_of_dropWhile
    {list kept : List (List Char)}
    (hkept : list.dropWhile (fun part => (component part).isNone) = kept) :
    ∃ skipped, list.reverse = kept.reverse ++ skipped ∧
      skipped.filterMap component = [] := by
  refine ⟨(list.takeWhile fun part => (component part).isNone).reverse,
    ?_, ?_⟩
  · rw [← List.reverse_append, ← hkept, List.takeWhile_append_dropWhile]
  · rw [List.filterMap_eq_nil_iff]
    intro part hpart
    simpa using List.mem_takeWhile_imp (List.mem_reverse.mp hpart)

/-- The parts of a path around the last one that counts. -/
theorem parts_of_dropWhile
    {path : Path} {last : List Char} {front : List (List Char)}
    (hlast : (parts path).reverse.dropWhile (fun part =>
      (component part).isNone) = last :: front) :
    ∃ skipped found, parts path = front.reverse ++ last :: skipped ∧
      component last = some found ∧
      steps path = front.reverse.filterMap component ++ [found] := by
  obtain ⟨skipped, hparts, hskipped⟩ :=
    filterMap_component_of_dropWhile hlast
  rw [List.reverse_reverse, List.reverse_cons, List.append_assoc,
    List.singleton_append] at hparts
  have hcounts : (component last).isNone = false := by
    have hhead := List.head?_dropWhile_not (fun part =>
      (component part).isNone) (parts path).reverse
    simpa [hlast] using hhead
  obtain ⟨found, hfound⟩ : ∃ found, component last = some found := by
    rw [← Option.isSome_iff_exists]
    simpa using hcounts
  refine ⟨skipped, found, hparts, hfound, ?_⟩
  rw [steps, hparts, List.filterMap_append,
    List.filterMap_cons_some hfound, hskipped]

/-- The parts of a path with a last name: those in front of the name, the
name, and skipped ones. -/
theorem parts_of_getLast
    {path : Path} {name : List Char}
    (hname : (components path).getLast? = some (.normal name)) :
    ∃ front skipped, parts path = front.reverse ++ name :: skipped ∧
      (parts path).reverse.dropWhile (fun part =>
        (component part).isNone) = name :: front ∧
      steps path = front.reverse.filterMap component ++ [.normal name] ∧
      component name = some (.normal name) := by
  cases hdrop : (parts path).reverse.dropWhile fun part =>
      (component part).isNone with
  | nil =>
      obtain ⟨skipped, hparts, hskipped⟩ :=
        filterMap_component_of_dropWhile hdrop
      rw [List.reverse_reverse] at hparts
      have hnone : steps path = [] := by
        rw [steps, hparts, List.filterMap_append, hskipped]
        rfl
      rw [components, hnone, List.append_nil] at hname
      rcases start_cases (parts path) with hstart | hstart | hstart <;>
        simp [hstart] at hname
  | cons last front =>
      obtain ⟨skipped, found, hparts, hfound, hsteps⟩ :=
        parts_of_dropWhile hdrop
      have hnormal : found = .normal name := by
        rw [components, hsteps, ← List.append_assoc,
          List.getLast?_concat] at hname
        exact Option.some.inj hname
      subst hnormal
      obtain rfl := (component_eq_normal.mp hfound).1
      exact ⟨front, skipped, hparts, rfl, hsteps, hfound⟩

theorem components_withExtension
    {path extension : Path} {name : List Char}
    (hname : (components path).getLast? = some (.normal name))
    (hextension : extension ≠ []) (hslash : '/' ∉ extension) :
    components (withExtension path extension) =
      (components path).dropLast ++
        [.normal (fileStem name ++ '.' :: extension)] := by
  obtain ⟨front, skipped, hparts, hdrop, hsteps, hcomponent⟩ :=
    parts_of_getLast hname
  obtain ⟨_, hnonempty, hdot, hparent⟩ := component_eq_normal.mp hcomponent
  have hslashes : ∀ part ∈ front.reverse ++
      [fileStem name ++ '.' :: extension], '/' ∉ part := by
    have hold : ∀ part ∈ parts path, '/' ∉ part :=
      fun part hpart => not_mem_of_mem_splitOn hpart
    rw [hparts] at hold
    intro part hpart
    rcases List.mem_append.mp hpart with hfront | hlast
    · exact hold part (List.mem_append_left _ hfront)
    · rw [List.mem_singleton.mp hlast]
      have hclean := hold name (by simp)
      simp only [List.mem_append, List.mem_cons, not_or]
      exact ⟨fun hstem => hclean (fileStem_subset hstem), by decide, hslash⟩
  have hextended : parts (withExtension path extension) =
      front.reverse ++ [fileStem name ++ '.' :: extension] := by
    unfold withExtension
    rw [hdrop]
    simp only [hparent, if_false]
    exact List.splitOn_intercalate '/' hslashes (by simp)
  have hstart : start (parts (withExtension path extension)) =
      start (parts path) := by
    rw [hextended, hparts]
    rcases eq_or_ne front.reverse [] with hempty | hfront
    · have hplain : ∀ part behind, component part = some (.normal part) →
          start (part :: behind) = [] := by
        intro part behind hpart
        obtain ⟨_, hpart, hdot, _⟩ := component_eq_normal.mp hpart
        unfold start
        grind
      rw [hempty, List.nil_append, List.nil_append,
        hplain name skipped hcomponent,
        hplain _ [] (component_extended hnonempty hextension)]
    · exact start_append hfront (by simp) (by simp)
  unfold components
  rw [hstart, hsteps, ← List.append_assoc, List.dropLast_concat]
  unfold steps
  rw [hextended, List.filterMap_append, List.append_assoc]
  simp [component_extended hnonempty hextension]

theorem IsDirectChild.withExtension
    {dir path extension : Path} (hchild : IsDirectChild dir path)
    (hextension : extension ≠ []) (hslash : '/' ∉ extension) :
    IsDirectChild dir (withExtension path extension) := by
  obtain ⟨name, hcomponents⟩ := hchild
  have hname : (components path).getLast? = some (.normal name) := by
    rw [hcomponents]
    simp
  refine ⟨fileStem name ++ '.' :: extension, ?_⟩
  rw [components_withExtension hname hextension hslash, hcomponents,
    List.dropLast_concat]

/-! ## Parents -/

/-- The parts that are kept at the front decide the start when the last of
them counts. -/
theorem start_append_of_component
    {front : List (List Char)} {last : List Char}
    (hlast : (component last).isNone = false) (rest : List (List Char)) :
    start (front ++ last :: rest) = start (front ++ [last]) := by
  cases front with
  | nil =>
      have hnonempty : last ≠ [] := by
        intro hempty
        rw [hempty] at hlast
        cases hlast
      have hdot : last ≠ ['.'] := by
        intro hdot
        rw [hdot] at hlast
        cases hlast
      unfold start
      grind
  | cons first others =>
      unfold start
      cases others <;> grind

theorem component_ne_rootDir {part : List Char} {found : Component}
    (hfound : component part = some found) : found ≠ .rootDir := by
  unfold component at hfound
  split at hfound <;> simp_all <;> grind

/-- What counts of the parts in front are the components of their text. -/
theorem components_asPath
    {path : Path} {front rest : List (List Char)}
    (hparts : parts path = front.reverse ++ rest) :
    components (asPath path front) =
      start (parts path) ++ front.reverse.filterMap component := by
  unfold asPath
  split
  · rename_i hskipped
    obtain ⟨skipped, hfront, hnone⟩ :=
      filterMap_component_of_dropWhile hskipped
    rw [hfront, List.filterMap_append, hnone]
    rcases start_cases (parts path) with hstart | hstart | hstart <;>
      rw [hstart] <;> rfl
  · rename_i hnonempty
    obtain ⟨kept, hkept⟩ : ∃ kept, front.dropWhile (fun part =>
        (component part).isNone) = kept := ⟨_, rfl⟩
    rw [hkept] at hnonempty ⊢
    obtain ⟨skipped, hfront, hnone⟩ :=
      filterMap_component_of_dropWhile hkept
    obtain ⟨nearest, others, rfl⟩ := List.exists_cons_of_ne_nil hnonempty
    have hnearest : (component nearest).isNone = false := by
      have hhead := List.head?_dropWhile_not (fun part =>
        (component part).isNone) front
      simpa [hkept] using hhead
    have hall : parts path =
        others.reverse ++ nearest :: (skipped ++ rest) := by
      rw [hparts, hfront]
      simp
    have htext : parts (['/'].intercalate (nearest :: others).reverse) =
        others.reverse ++ [nearest] := by
      rw [List.reverse_cons]
      refine List.splitOn_intercalate '/' ?_ (by simp)
      intro part hpart
      have hmem : part ∈ parts path := by
        rw [hall]
        simp only [List.mem_append, List.mem_singleton] at hpart
        simp only [List.mem_append, List.mem_cons]
        tauto
      exact not_mem_of_mem_splitOn hmem
    rw [hfront, List.filterMap_append, hnone, List.append_nil, components,
      steps, htext, hall,
      start_append_of_component hnearest (skipped ++ rest),
      List.reverse_cons]

theorem isParent_of_parent
    {path dir : Path} (hparent : parent path = some dir) :
    IsParent (components dir) path := by
  unfold parent at hparent
  split at hparent
  · rename_i hskipped
    split_ifs at hparent with hstart
    obtain ⟨skipped, hparts, hnone⟩ :=
      filterMap_component_of_dropWhile hskipped
    rw [List.reverse_reverse] at hparts
    cases hparent
    refine ⟨.curDir, by decide, ?_⟩
    rw [components, hstart, steps, hparts, List.filterMap_append, hnone]
    rfl
  · rename_i last front hlast
    obtain ⟨skipped, found, hparts, hfound, hsteps⟩ :=
      parts_of_dropWhile hlast
    obtain rfl := Option.some.inj hparent
    refine ⟨found, component_ne_rootDir hfound, ?_⟩
    rw [components_asPath hparts, components, hsteps, List.append_assoc]

theorem parent_eq_none
    {path : Path} (hnone : parent path = none) (dir : List Component) :
    ¬ IsParent dir path := by
  rintro ⟨last, hlast, hcomponents⟩
  unfold parent at hnone
  split at hnone
  · rename_i hskipped
    split_ifs at hnone with hstart
    obtain ⟨skipped, hparts, hsteps⟩ :=
      filterMap_component_of_dropWhile hskipped
    rw [List.reverse_reverse] at hparts
    rw [components, steps, hparts, List.filterMap_append, hsteps, ← hparts,
      List.reverse_nil, List.filterMap_nil, List.append_nil,
      List.append_nil] at hcomponents
    have hmem : last ∈ start (parts path) := by
      rw [hcomponents]
      simp
    rcases start_cases (parts path) with hroot | hdot | hempty
    · rw [hroot, List.mem_singleton] at hmem
      exact hlast hmem
    · exact hstart hdot
    · rw [hempty] at hmem
      cases hmem
  · cases hnone

theorem isParent_iff
    {path : Path} {dir : List Component} :
    IsParent dir path ↔
      ∃ text, parent path = some text ∧ components text = dir := by
  constructor
  · intro hdir
    cases hparent : parent path with
    | none => exact absurd hdir (parent_eq_none hparent dir)
    | some text =>
        obtain ⟨last, _, hcomponents⟩ := hdir
        obtain ⟨other, _, hother⟩ := isParent_of_parent hparent
        rw [hcomponents] at hother
        exact ⟨text, rfl, (List.append_inj_left' hother rfl).symm⟩
  · rintro ⟨text, hparent, rfl⟩
    exact isParent_of_parent hparent

theorem parent_ne_nil
    {path text : Path} (habsolute : isAbsolute path = true)
    (hparent : parent path = some text) : text ≠ [] := by
  rintro rfl
  obtain ⟨last, hlast, hcomponents⟩ := isParent_of_parent hparent
  obtain ⟨rest, rfl⟩ : ∃ rest, path = '/' :: rest := by
    rw [isAbsolute, beq_iff_eq, List.head?_eq_some_iff] at habsolute
    exact habsolute
  have hparts : parts ('/' :: rest) = [] :: parts rest :=
    List.splitOn_append_cons_self [] rest
  obtain ⟨first, others, hrest⟩ :=
    List.exists_cons_of_ne_nil (parts_ne_nil rest)
  have hroot : (components ('/' :: rest)).head? = some .rootDir := by
    rw [components, hparts, hrest]
    rfl
  rw [hcomponents] at hroot
  exact hlast (Option.some.inj hroot)

/-- The parent of an entry of a directory is the text in front of it. -/
theorem parent_of_entry
    {base dir name : List Char} (hdir : (component dir).isNone = false)
    (hdirSlash : '/' ∉ dir) (hname : (component name).isNone = false)
    (hnameSlash : '/' ∉ name) :
    parent (base ++ '/' :: dir ++ '/' :: name) =
      some (base ++ '/' :: dir) := by
  have hfront : parts (base ++ '/' :: dir) = parts base ++ [dir] := by
    unfold parts
    rw [List.splitOn_append_cons_self, List.splitOn_eq_singleton hdirSlash]
  have hall : parts (base ++ '/' :: dir ++ '/' :: name) =
      parts (base ++ '/' :: dir) ++ [name] := by
    unfold parts
    rw [List.splitOn_append_cons_self,
      List.splitOn_eq_singleton hnameSlash]
  have hlast : (parts (base ++ '/' :: dir ++ '/' :: name)).reverse.dropWhile
      (fun part => (component part).isNone) =
        name :: (parts (base ++ '/' :: dir)).reverse := by
    rw [hall, List.reverse_append, List.reverse_singleton,
      List.singleton_append, List.dropWhile_cons_of_neg (by simp [hname])]
  have hkept : (parts (base ++ '/' :: dir)).reverse.dropWhile
      (fun part => (component part).isNone) =
        (parts (base ++ '/' :: dir)).reverse := by
    rw [hfront, List.reverse_append, List.reverse_singleton,
      List.singleton_append, List.dropWhile_cons_of_neg (by simp [hdir])]
  have htext : asPath (base ++ '/' :: dir ++ '/' :: name)
      (parts (base ++ '/' :: dir)).reverse = base ++ '/' :: dir := by
    unfold asPath
    rw [hkept]
    split
    · rename_i hempty
      rw [List.reverse_eq_nil_iff] at hempty
      exact absurd hempty (parts_ne_nil _)
    · rw [List.reverse_reverse]
      exact List.intercalate_splitOn '/'
  unfold parent
  rw [hlast]
  dsimp only
  rw [htext]

/-! ## The symbols of a path -/

theorem normal_mem_components
    {path : Path} {name : List Char} :
    .normal name ∈ components path ↔
      name ∈ parts path ∧ component name = some (.normal name) := by
  have hstart : Component.normal name ∉ start (parts path) := by
    rcases start_cases (parts path) with hstart | hstart | hstart <;>
      simp [hstart]
  rw [components, List.mem_append, or_iff_right hstart, steps,
    List.mem_filterMap]
  constructor
  · rintro ⟨part, hpart, hname⟩
    obtain rfl := (component_eq_normal.mp hname).1
    exact ⟨hpart, hname⟩
  · rintro ⟨hpart, hname⟩
    exact ⟨name, hpart, hname⟩

/-- Slashes and dots apart, the symbols of a path are those of its names. -/
theorem forall_names_iff
    (P : Char → Prop) (hslash : P '/') (hdot : P '.') {path : Path} :
    (∀ name, .normal name ∈ components path → ∀ symbol ∈ name, P symbol) ↔
      ∀ symbol ∈ path, P symbol := by
  constructor
  · intro hnames symbol hsymbol
    have htext : ['/'].intercalate (parts path) = path :=
      List.intercalate_splitOn '/'
    rw [← htext] at hsymbol
    rcases mem_intercalate hsymbol with rfl | ⟨part, hpart, hmem⟩
    · exact hslash
    · by_cases hname : component part = some (.normal part)
      · exact hnames part (normal_mem_components.mpr ⟨hpart, hname⟩) symbol
          hmem
      · have hdots : symbol = '.' := by
          unfold component at hname
          split at hname <;> simp_all
        rw [hdots]
        exact hdot
  · intro hpath name hname symbol hsymbol
    have hpart := (normal_mem_components.mp hname).1
    exact hpath symbol (mem_of_mem_splitOn hpart hsymbol)

end UnixPaths

import Mathlib.Data.Nat.Notation
import Mathlib.Logic.Function.Basic

/-!
# Files and their names

A directory entry names a file, and an open file is used through the file
itself: writing to it changes what its name shows, wherever a rename has moved
the name in the meantime.  No file has two names.  The lemmas say what each
operation does to what the entries show.
-/

namespace NamedFiles

variable {Entry Byte : Type}

structure FileStore (Entry Byte : Type) where
  names : Entry → Option ℕ
  contents : ℕ → List Byte
  next : ℕ
  fresh : ∀ entry file, names entry = some file → file < next
  single : ∀ entry other file, names entry = some file →
    names other = some file → entry = other

namespace FileStore

def empty : FileStore Entry Byte where
  names _ := none
  contents _ := []
  next := 0
  fresh := by
    intro entry file hnamed
    cases hnamed
  single := by
    intro entry other file hnamed
    cases hnamed

variable (store : FileStore Entry Byte)

/-- The file that an entry names, and its content. -/
def find (entry : Entry) : Option (ℕ × List Byte) :=
  (store.names entry).map fun file => (file, store.contents file)

/-! ## Operations -/

/-- The part of the file behind the written bytes stays. -/
def write (file : ℕ) (bytes : List Byte) : FileStore Entry Byte :=
  { store with
    contents := Function.update store.contents file
      (bytes ++ (store.contents file).drop bytes.length) }

/-- Writing at an offset, which is not behind the end of the file. -/
def writeAt (file offset : ℕ) (bytes : List Byte) : FileStore Entry Byte :=
  { store with
    contents := Function.update store.contents file
      ((store.contents file).take offset ++ bytes ++
        (store.contents file).drop (offset + bytes.length)) }

def truncate (file : ℕ) : FileStore Entry Byte :=
  { store with contents := Function.update store.contents file [] }

/-- An empty file without a name. -/
def extend : FileStore Entry Byte where
  names := store.names
  contents := Function.update store.contents store.next []
  next := store.next + 1
  fresh := by
    intro entry file hnamed
    have hlt := store.fresh entry file hnamed
    omega
  single := store.single

theorem names_ne_next (entry : Entry) :
    store.names entry ≠ some store.next := by
  intro hnamed
  have hlt := store.fresh entry store.next hnamed
  omega

section Named

variable [DecidableEq Entry]

def remove (entry : Entry) : FileStore Entry Byte where
  names := Function.update store.names entry none
  contents := store.contents
  next := store.next
  fresh := by
    intro other file hnamed
    rcases eq_or_ne other entry with rfl | hother
    · simp at hnamed
    · rw [Function.update_of_ne hother] at hnamed
      exact store.fresh other file hnamed
  single := by
    intro first second file hfirst hsecond
    rcases eq_or_ne first entry with rfl | hone
    · simp at hfirst
    · rcases eq_or_ne second entry with rfl | htwo
      · simp at hsecond
      · rw [Function.update_of_ne hone] at hfirst
        rw [Function.update_of_ne htwo] at hsecond
        exact store.single first second file hfirst hsecond

/-- A file without a name gets one, which it may take from another file. -/
def link (entry : Entry) (file : ℕ) (hfile : file < store.next)
    (hfree : ∀ other, store.names other ≠ some file) :
    FileStore Entry Byte where
  names := Function.update store.names entry (some file)
  contents := store.contents
  next := store.next
  fresh := by
    intro other found hnamed
    rcases eq_or_ne other entry with rfl | hother
    · simp only [Function.update_self, Option.some.injEq] at hnamed
      omega
    · rw [Function.update_of_ne hother] at hnamed
      exact store.fresh other found hnamed
  single := by
    intro first second found hfirst hsecond
    rcases eq_or_ne first entry with rfl | hone
    · rcases eq_or_ne second first with rfl | htwo
      · rfl
      · simp only [Function.update_self, Option.some.injEq] at hfirst
        rw [Function.update_of_ne htwo, ← hfirst] at hsecond
        exact (hfree second hsecond).elim
    · rw [Function.update_of_ne hone] at hfirst
      rcases eq_or_ne second entry with rfl | htwo
      · simp only [Function.update_self, Option.some.injEq] at hsecond
        rw [← hsecond] at hfirst
        exact (hfree first hfirst).elim
      · rw [Function.update_of_ne htwo] at hsecond
        exact store.single first second found hfirst hsecond

/-- A file that is there already is cut to nothing. -/
def create (entry : Entry) : ℕ × FileStore Entry Byte :=
  match store.names entry with
  | some file => (file, store.truncate file)
  | none => (store.next, store.extend.link entry store.next
      (Nat.lt_succ_self _) store.names_ne_next)

/-- The source's file gets the target's name; a file that had it loses it. -/
def rename (source target : Entry) : Option (FileStore Entry Byte) :=
  match hnamed : store.names source with
  | none => none
  | some file => some ((store.remove source).link target file
      (store.fresh source file hnamed) (by
        intro other hother
        simp only [remove] at hother
        rcases eq_or_ne other source with rfl | hne
        · simp at hother
        · rw [Function.update_of_ne hne] at hother
          exact hne (store.single other source file hother hnamed)))

end Named

/-! ## What the entries show -/

variable {store}

theorem find_eq_some
    {entry : Entry} {file : ℕ} {bytes : List Byte} :
    store.find entry = some (file, bytes) ↔
      store.names entry = some file ∧ store.contents file = bytes := by
  unfold find
  cases store.names entry with
  | none => simp
  | some found => grind

theorem names_of_find
    {reached : FileStore Entry Byte} {entry : Entry}
    (hfind : reached.find entry = store.find entry) :
    reached.names entry = store.names entry := by
  have hnames := congrArg (Option.map Prod.fst) hfind
  simpa [find, Option.map_map, Function.comp_def] using hnames

/-- A change of one file does not show under the name of another. -/
theorem find_congr
    {reached : FileStore Entry Byte} {entry : Entry} {changed : ℕ}
    (hnames : reached.names entry = store.names entry)
    (hcontents : ∀ file ≠ changed,
      reached.contents file = store.contents file)
    (hother : store.names entry ≠ some changed) :
    reached.find entry = store.find entry := by
  unfold find
  rw [hnames]
  cases hnamed : store.names entry with
  | none => rfl
  | some file =>
      have hfile : file ≠ changed := by
        rintro rfl
        exact hother hnamed
      simp [hcontents file hfile]

theorem find_write_self
    {entry : Entry} {file : ℕ} {old : List Byte}
    (hfile : store.find entry = some (file, old)) (bytes : List Byte) :
    (store.write file bytes).find entry =
      some (file, bytes ++ old.drop bytes.length) := by
  obtain ⟨hnamed, hcontents⟩ := find_eq_some.mp hfile
  simp [find, write, hnamed, hcontents]

theorem find_write_of_ne
    {entry other : Entry} {file : ℕ}
    (hnamed : store.names entry = some file) (hother : other ≠ entry)
    (bytes : List Byte) :
    (store.write file bytes).find other = store.find other := by
  have hcontents : ∀ found ≠ file, (store.write file bytes).contents found =
      store.contents found :=
    fun found hfound => Function.update_of_ne hfound _ _
  have hnames : (store.write file bytes).names other = store.names other :=
    rfl
  apply find_congr hnames hcontents
  intro hsame
  exact hother (store.single other entry file hsame hnamed)

theorem find_writeAt_self
    {entry : Entry} {file : ℕ} {old : List Byte}
    (hfile : store.find entry = some (file, old)) (offset : ℕ)
    (bytes : List Byte) :
    (store.writeAt file offset bytes).find entry = some (file,
      old.take offset ++ bytes ++ old.drop (offset + bytes.length)) := by
  obtain ⟨hnamed, hcontents⟩ := find_eq_some.mp hfile
  simp [find, writeAt, hnamed, hcontents]

theorem find_writeAt_of_ne
    {entry : Entry} {file : ℕ} (hother : store.names entry ≠ some file)
    (offset : ℕ) (bytes : List Byte) :
    (store.writeAt file offset bytes).find entry = store.find entry := by
  have hcontents : ∀ found ≠ file,
      (store.writeAt file offset bytes).contents found =
        store.contents found :=
    fun found hfound => Function.update_of_ne hfound _ _
  exact find_congr rfl hcontents hother

variable [DecidableEq Entry]

theorem find_create_self (entry : Entry) :
    (store.create entry).2.find entry =
      some ((store.create entry).1, []) := by
  unfold create
  cases hnamed : store.names entry with
  | none => simp [find, link, extend]
  | some file => simp [find, truncate, hnamed]

theorem find_create_of_ne
    {entry other : Entry} (hother : other ≠ entry) :
    (store.create entry).2.find other = store.find other := by
  unfold create
  cases hnamed : store.names entry with
  | none =>
      have hnames : Function.update store.names entry (some store.next) other =
          store.names other := Function.update_of_ne hother _ _
      have hcontents : ∀ found ≠ store.next, store.extend.contents found =
          store.contents found :=
        fun found hfound => Function.update_of_ne hfound _ _
      exact find_congr hnames hcontents (store.names_ne_next other)
  | some file =>
      have hcontents : ∀ found ≠ file,
          (store.truncate file).contents found = store.contents found :=
        fun found hfound => Function.update_of_ne hfound _ _
      have hnames : (store.truncate file).names other = store.names other :=
        rfl
      change (store.truncate file).find other = store.find other
      apply find_congr hnames hcontents
      intro hsame
      exact hother (store.single other entry file hsame hnamed)

theorem rename_eq_some
    {reached : FileStore Entry Byte} {source target : Entry}
    (hreached : store.rename source target = some reached) :
    reached.find target = store.find source ∧
      (∀ other, other ≠ source → other ≠ target →
        reached.find other = store.find other) ∧
      (source ≠ target → reached.find source = none) := by
  unfold rename at hreached
  split at hreached
  · cases hreached
  · rename_i file hnamed
    cases hreached
    refine ⟨?_, ?_, ?_⟩
    · simp [find, link, remove, hnamed]
    · intro other hsource htarget
      simp [find, link, remove, hsource, htarget]
    · intro hne
      simp [find, link, remove, hne]

end FileStore

end NamedFiles

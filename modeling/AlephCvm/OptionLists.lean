import Mathlib.Data.List.Basic

/-!
# Lists of options in a text

A list of options is a text of `key=value` parts with commas between them; in
a value, two commas stand for one.  The reader goes through the text symbol
by symbol.  A part without `=` is an error, and a comma at the end of the
text is not.
-/

namespace OptionLists

abbrev Options := List (String × String)

/-- Inside a key, inside a value, or behind a comma that ends a value unless
another one follows. -/
inductive Position where
  | key (read : List Char)
  | value (key read : List Char)
  | comma (key read : List Char)
  | failed
  deriving DecidableEq

structure Reader where
  options : Options
  position : Position
  deriving DecidableEq

def Reader.next (reader : Reader) (symbol : Char) : Reader :=
  match reader.position with
  | .key read =>
      if symbol = '=' then
        { reader with
          position := if read.isEmpty then .failed else .value read [] }
      else if symbol = ',' then { reader with position := .failed }
      else { reader with position := .key (read ++ [symbol]) }
  | .value key read =>
      if symbol = ',' then { reader with position := .comma key read }
      else { reader with position := .value key (read ++ [symbol]) }
  | .comma key read =>
      if symbol = ',' then
        { reader with position := .value key (read ++ [',']) }
      else if symbol = '=' then { reader with position := .failed }
      else ⟨reader.options ++ [(String.ofList key, String.ofList read)],
        .key [symbol]⟩
  | .failed => reader

def Reader.finish (reader : Reader) : Option Options :=
  match reader.position with
  | .key read => if read.isEmpty then some reader.options else none
  | .value key read | .comma key read =>
      some (reader.options ++ [(String.ofList key, String.ofList read)])
  | .failed => none

def Reader.read (reader : Reader) (text : List Char) : Reader :=
  text.foldl Reader.next reader

def readOptionList (text : String) : Option Options :=
  (Reader.read ⟨[], .key []⟩ text.toList).finish

/-- The first part is the value of this key when there is no `=` in front of
the first comma. -/
def readWithImplied (implied : String) (text : String) : Option Options :=
  if (text.toList.takeWhile fun symbol => symbol != ',').contains '=' then
    readOptionList text
  else (Reader.read ⟨[], .value implied.toList []⟩ text.toList).finish

theorem Reader.read_append (reader : Reader) (first second : List Char) :
    reader.read (first ++ second) = (reader.read first).read second :=
  List.foldl_append

theorem Reader.read_cons (reader : Reader) (symbol : Char)
    (rest : List Char) :
    reader.read (symbol :: rest) = (reader.next symbol).read rest := rfl

/-- In a value, everything up to the first comma belongs to it. -/
theorem Reader.read_value
    {options : Options} {key read text : List Char} (hclean : ',' ∉ text) :
    Reader.read ⟨options, .value key read⟩ text =
      ⟨options, .value key (read ++ text)⟩ := by
  induction text generalizing read with
  | nil => simp [Reader.read]
  | cons symbol rest ih =>
      simp only [List.mem_cons, not_or] at hclean
      have hsymbol : symbol ≠ ',' := fun h => hclean.1 h.symm
      have hnext : Reader.next ⟨options, .value key read⟩ symbol =
          ⟨options, .value key (read ++ [symbol])⟩ := by
        simp [Reader.next, hsymbol]
      have hrest := @ih (read ++ [symbol]) hclean.2
      simp only [Reader.read, List.foldl_cons, hnext] at hrest ⊢
      rw [hrest, List.append_assoc, List.singleton_append]

/-- The options that have been read stay at the front. -/
theorem Reader.options_prefix
    {reader : Reader} {text : List Char} {all : Options}
    (hall : (reader.read text).finish = some all) :
    reader.options <+: all := by
  induction text generalizing reader with
  | nil =>
      simp only [Reader.read, List.foldl_nil, Reader.finish] at hall
      split at hall
      · split_ifs at hall
        cases hall
        exact List.prefix_rfl
      · cases hall
        exact List.prefix_append _ _
      · cases hall
        exact List.prefix_append _ _
      · cases hall
  | cons symbol rest ih =>
      have hnext := @ih (reader.next symbol) hall
      refine List.IsPrefix.trans ?_ hnext
      unfold Reader.next
      split
      · split_ifs <;> exact List.prefix_rfl
      · split_ifs <;> exact List.prefix_rfl
      · split_ifs
        · exact List.prefix_rfl
        · exact List.prefix_rfl
        · exact List.prefix_append _ _
      · exact List.prefix_rfl

theorem Reader.read_failed (options : Options) (text : List Char) :
    (Reader.read ⟨options, .failed⟩ text).finish = none := by
  induction text with
  | nil => rfl
  | cons symbol rest ih => exact ih

/-- The value that is being read gets at most one symbol for each symbol of
the text. -/
theorem Reader.value_length
    {options all : Options} {position : Position} {key read text : List Char}
    (hposition : position = .value key read ∨ position = .comma key read)
    (hall : (Reader.read ⟨options, position⟩ text).finish = some all) :
    ∃ value rest,
      all = options ++ (String.ofList key, String.ofList value) :: rest ∧
        value.length ≤ read.length + text.length := by
  induction text generalizing position read with
  | nil =>
      rcases hposition with hposition | hposition <;> subst hposition
      · cases hall
        exact ⟨read, [], rfl, by simp⟩
      · cases hall
        exact ⟨read, [], rfl, by simp⟩
  | cons symbol text ih =>
      have hread : ((Reader.next ⟨options, position⟩ symbol).read
          text).finish = some all := hall
      have hgrown : ∀ longer : List Char,
          longer.length ≤ read.length + 1 →
          (∃ value rest,
            all = options ++
              (String.ofList key, String.ofList value) :: rest ∧
            value.length ≤ longer.length + text.length) →
          ∃ value rest,
            all = options ++
              (String.ofList key, String.ofList value) :: rest ∧
            value.length ≤ read.length + (symbol :: text).length := by
        intro longer hlonger hfirst
        obtain ⟨value, rest, hvalue, hlength⟩ := hfirst
        refine ⟨value, rest, hvalue, ?_⟩
        simp only [List.length_cons]
        omega
      rcases hposition with hposition | hposition <;> subst hposition
      · by_cases hcomma : symbol = ','
        · simp only [Reader.next, hcomma, if_true] at hread
          exact hgrown read (by omega) (ih (.inr rfl) hread)
        · simp only [Reader.next, hcomma, if_false] at hread
          exact hgrown (read ++ [symbol]) (by simp)
            (ih (.inl rfl) hread)
      · by_cases hcomma : symbol = ','
        · simp only [Reader.next, hcomma, if_true] at hread
          exact hgrown (read ++ [',']) (by simp) (ih (.inl rfl) hread)
        · by_cases hequals : symbol = '='
          · simp [Reader.next, hequals, read_failed] at hread
          · simp only [Reader.next, hcomma, hequals, if_false] at hread
            obtain ⟨rest, hrest⟩ := Reader.options_prefix hread
            refine ⟨read, rest, ?_, by omega⟩
            rw [← hrest, List.append_assoc, List.singleton_append]

/-- The rest of a text is the value that is being read exactly when there is
no comma in it. -/
theorem Reader.value_intact_iff
    {options : Options} {key text : List Char} :
    (Reader.read ⟨options, .value key []⟩ text).finish =
        some (options ++ [(String.ofList key, String.ofList text)]) ↔
      ',' ∉ text := by
  constructor
  · intro hread hcomma
    obtain ⟨before, after, htext, hbefore⟩ :=
      List.eq_append_cons_of_mem hcomma
    rw [htext, Reader.read_append, Reader.read_value hbefore] at hread
    have hafter : (Reader.read ⟨options, .comma key ([] ++ before)⟩
        after).finish = _ := hread
    obtain ⟨value, rest, hvalue, hlength⟩ :=
      Reader.value_length (.inr rfl) hafter
    have hpair := List.append_cancel_left hvalue
    simp only [List.cons.injEq, Prod.mk.injEq, true_and] at hpair
    have hsame : before ++ ',' :: after = value := by
      simpa using congrArg String.toList hpair.1
    have hlengths := congrArg List.length hsame
    simp only [List.length_append, List.length_cons, List.nil_append]
      at hlengths hlength
    omega
  · intro hclean
    rw [Reader.read_value hclean]
    rfl

/-! ## Reading what was printed -/

def printOption (option : String × String) : List Char :=
  option.1.toList ++ '=' :: option.2.toList

def printOptions : Options → List Char
  | [] => []
  | [option] => printOption option
  | option :: rest => printOption option ++ ',' :: printOptions rest

theorem printOptions_cons (option : String × String) (rest : Options) :
    ∃ after, printOptions (option :: rest) = printOption option ++ after := by
  cases rest with
  | nil => exact ⟨[], by simp [printOptions]⟩
  | cons second others => exact ⟨_, rfl⟩

theorem comma_printOptions (option : String × String) (rest : Options) :
    ',' :: printOptions (option :: rest) =
      (option :: rest).flatMap fun option => ',' :: printOption option := by
  induction rest generalizing option with
  | nil => simp [printOptions]
  | cons second others ih =>
      rw [List.flatMap_cons, ← ih second]
      rfl

/-- A key that ends at its `=`, and a value without a comma. -/
structure CleanOption (option : String × String) : Prop where
  nonempty : option.1.toList ≠ []
  equals : '=' ∉ option.1.toList
  comma : ',' ∉ option.1.toList
  value : ',' ∉ option.2.toList

instance CleanOption.decidable (option : String × String) :
    Decidable (CleanOption option) :=
  decidable_of_iff
    (option.1.toList ≠ [] ∧ '=' ∉ option.1.toList ∧
      ',' ∉ option.1.toList ∧ ',' ∉ option.2.toList)
    ⟨fun h => ⟨h.1, h.2.1, h.2.2.1, h.2.2.2⟩,
      fun h => ⟨h.nonempty, h.equals, h.comma, h.value⟩⟩

theorem CleanOption.of_key
    {key value : String} (hkey : CleanOption (key, ""))
    (hvalue : ',' ∉ value.toList) : CleanOption (key, value) :=
  ⟨hkey.nonempty, hkey.equals, hkey.comma, hvalue⟩

theorem Reader.read_key
    {options : Options} {read text : List Char} (hequals : '=' ∉ text)
    (hcomma : ',' ∉ text) :
    Reader.read ⟨options, .key read⟩ text =
      ⟨options, .key (read ++ text)⟩ := by
  induction text generalizing read with
  | nil => simp [Reader.read]
  | cons symbol rest ih =>
      simp only [List.mem_cons, not_or] at hequals hcomma
      have hnext : Reader.next ⟨options, .key read⟩ symbol =
          ⟨options, .key (read ++ [symbol])⟩ := by
        simp [Reader.next, Ne.symm hequals.1, Ne.symm hcomma.1]
      have hrest := @ih (read ++ [symbol]) hequals.2 hcomma.2
      simp only [Reader.read, List.foldl_cons, hnext] at hrest ⊢
      rw [hrest, List.append_assoc, List.singleton_append]

theorem Reader.read_option
    {option : String × String} (hclean : CleanOption option)
    (options : Options) :
    Reader.read ⟨options, .key []⟩ (printOption option) =
      ⟨options, .value option.1.toList option.2.toList⟩ := by
  have hequals : Reader.next ⟨options, .key option.1.toList⟩ '=' =
      ⟨options, .value option.1.toList []⟩ := by
    simp [Reader.next, hclean.nonempty]
  rw [printOption, Reader.read_append,
    Reader.read_key hclean.equals hclean.comma, List.nil_append,
    Reader.read_cons, hequals, Reader.read_value hclean.value,
    List.nil_append]

/-- A comma that another option follows ends the value. -/
theorem Reader.read_after_comma
    (options : Options) (key value : List Char) {option : String × String}
    (hclean : CleanOption option) (rest : List Char) :
    Reader.read ⟨options, .comma key value⟩ (printOption option ++ rest) =
      Reader.read
        ⟨options ++ [(String.ofList key, String.ofList value)], .key []⟩
        (printOption option ++ rest) := by
  unfold printOption
  cases hkey : option.1.toList with
  | nil => exact absurd hkey hclean.nonempty
  | cons symbol others =>
      have hequals := hclean.equals
      have hcomma := hclean.comma
      simp only [hkey, List.mem_cons, not_or] at hequals hcomma
      simp only [List.cons_append, Reader.read_cons]
      simp [Reader.next, Ne.symm hequals.1, Ne.symm hcomma.1]

theorem Reader.read_printOptions
    {list : Options} (hclean : ∀ option ∈ list, CleanOption option)
    (options : Options) :
    (Reader.read ⟨options, .key []⟩ (printOptions list)).finish =
      some (options ++ list) := by
  induction list generalizing options with
  | nil => simp [printOptions, Reader.read, Reader.finish]
  | cons option rest ih =>
      have hoption := hclean option List.mem_cons_self
      have hrest : ∀ other ∈ rest, CleanOption other :=
        fun other hother => hclean other (List.mem_cons_of_mem _ hother)
      have hvalue := Reader.read_option hoption options
      cases rest with
      | nil =>
          rw [printOptions, hvalue]
          simp [Reader.finish]
      | cons second others =>
          have hsecond := hrest second List.mem_cons_self
          have hcomma : Reader.next
              ⟨options, .value option.1.toList option.2.toList⟩ ',' =
              ⟨options, .comma option.1.toList option.2.toList⟩ := by
            simp [Reader.next]
          obtain ⟨after, hafter⟩ := printOptions_cons second others
          have hlater := ih hrest (options ++ [option])
          rw [hafter] at hlater
          rw [printOptions, Reader.read_append, hvalue, Reader.read_cons,
            hcomma, hafter, Reader.read_after_comma _ _ _ hsecond]
          · simpa using hlater
          · intro hnil
            cases hnil

/-- A printed list is read back as it was. -/
theorem readOptionList_of_printed
    {text : String} {list : Options}
    (htext : text.toList = printOptions list)
    (hclean : ∀ option ∈ list, CleanOption option) :
    readOptionList text = some list := by
  unfold readOptionList
  rw [htext, Reader.read_printOptions hclean]
  rfl

/-- A first part without a key is the value of the implied one. -/
theorem readWithImplied_of_front
    {implied text : String} {first rest : List Char}
    (htext : text.toList = first ++ ',' :: rest) (hequals : '=' ∉ first)
    (hcomma : ',' ∉ first) :
    readWithImplied implied text =
      (Reader.read ⟨[], .value implied.toList []⟩ text.toList).finish := by
  have hfront : (text.toList.takeWhile fun symbol => symbol != ',') =
      first := by
    rw [htext, List.takeWhile_append_of_pos]
    · simp
    · intro symbol hsymbol
      have hne : symbol ≠ ',' := by
        intro hsame
        exact hcomma (hsame ▸ hsymbol)
      simpa using hne
  rw [readWithImplied, hfront, if_neg (by simpa using hequals)]

/-- The same with a first part that has no key. -/
theorem readWithImplied_of_printed
    {implied first text : String} {list : Options} {option : String × String}
    (htext : text.toList =
      first.toList ++ ',' :: printOptions (option :: list))
    (hequals : '=' ∉ first.toList) (hcomma : ',' ∉ first.toList)
    (hclean : ∀ other ∈ option :: list, CleanOption other) :
    readWithImplied implied text =
      some ((implied, first) :: option :: list) := by
  have hoption := hclean option List.mem_cons_self
  obtain ⟨after, hafter⟩ := printOptions_cons option list
  have hread := Reader.read_printOptions hclean [(implied, first)]
  rw [hafter] at hread
  rw [readWithImplied_of_front htext hequals hcomma, htext, hafter,
    Reader.read_append, Reader.read_value hcomma, Reader.read_cons]
  have hnext : Reader.next ⟨[], .value implied.toList ([] ++ first.toList)⟩
      ',' = ⟨[], .comma implied.toList first.toList⟩ := by
    simp [Reader.next]
  rw [hnext, Reader.read_after_comma _ _ _ hoption]
  simpa using hread

end OptionLists

import AlephCvm.DecimalText
import AlephCvm.JsonTexts

/-!
# Trees that come back from their texts

What is written for a part of a tree is taken off the front of a text by the
reader, and the rest is left.  A tree whose numbers are integers of 64 bits
without a sign is therefore read back from either of its texts, so a record
comes back from its text when it comes back from its tree.
-/

namespace JsonRecords

open Utf8Text

variable {α β : Type}

/-! ## Strings -/

theorem readUnit_nibbles : ∀ code : Fin 32,
    readUnit (some '0') (some '0') (some (nibble (code.val / 16)))
        (some (nibble (code.val % 16))) = some code.val := by
  decide +kernel

theorem ofNat_of_toNat {symbol : Char} {code : ℕ}
    (hcode : symbol.toNat = code) : Char.ofNat code = symbol := by
  rw [← hcode, Char.ofNat_toNat]

theorem readSymbol_escape (symbol : Char) (rest : List Symbol) :
    readSymbol ((escape symbol).map some ++ rest) =
      some (some symbol, rest) := by
  unfold escape
  split_ifs with hquote hslash hback htab hline hform hreturn hcontrol
  · rw [hquote]
    rfl
  · rw [hslash]
    rfl
  · rw [← ofNat_of_toNat hback]
    rfl
  · rw [← ofNat_of_toNat htab]
    rfl
  · rw [← ofNat_of_toNat hline]
    rfl
  · rw [← ofNat_of_toNat hform]
    rfl
  · rw [← ofNat_of_toNat hreturn]
    rfl
  · have hunit := readUnit_nibbles ⟨symbol.toNat, hcontrol⟩
    have hlow : ¬ 0xD800 ≤ symbol.toNat := by omega
    have hhigh : ¬ 0xDC00 ≤ symbol.toNat := by omega
    simp only at hunit
    simp [readSymbol, hunit, hlow, hhigh]
  · simp only [List.map_cons, List.map_nil, List.singleton_append]
    rw [readSymbol]
    · rw [if_neg hcontrol]
    · intro first second third last others hrest
      exact hslash
    · intro other others hrest
      exact hslash

theorem head?_escape (symbol : Char) (rest : List Symbol) :
    ((escape symbol).map some ++ rest).head? ≠ some (some '"') := by
  unfold escape
  split_ifs with hquote <;> simp
  exact hquote

theorem readText_escape
    {text : List Char} {rest : List Symbol} {fuel : ℕ}
    (hfuel : text.length < fuel) :
    readText fuel ((text.flatMap escape).map some ++ some '"' :: rest) =
      some (some text, rest) := by
  induction text generalizing fuel with
  | nil =>
      cases fuel with
      | zero => simp at hfuel
      | succ fuel => simp [readText]
  | cons symbol text ih =>
      cases fuel with
      | zero => simp at hfuel
      | succ fuel =>
          have hrest : text.length < fuel := by
            simpa using hfuel
          rw [List.flatMap_cons, List.map_append, List.append_assoc,
            readText, if_neg (head?_escape symbol _), readSymbol_escape]
          simp [ih hrest]

theorem length_le_flatMap_escape (text : List Char) :
    text.length ≤ (text.flatMap escape).length := by
  induction text with
  | nil => simp
  | cons symbol text ih =>
      have hsymbol : 1 ≤ (escape symbol).length := by
        unfold escape
        split_ifs <;> simp
      rw [List.flatMap_cons, List.length_append, List.length_cons]
      omega

theorem readQuoted_writeText (text : String) (rest : List Symbol) :
    readQuoted ((text.toList.flatMap escape).map some ++
        some '"' :: rest) = some (some text, rest) := by
  have hfuel : text.toList.length <
      ((text.toList.flatMap escape).map some ++
        some '"' :: rest).length := by
    have hlength := length_le_flatMap_escape text.toList
    rw [List.length_append, List.length_cons, List.length_map]
    omega
  rw [readQuoted, readText_escape hfuel]
  simp

/-! ## Numbers -/

/-- The text does not go on with a symbol of a number. -/
def Stops (rest : List Symbol) : Prop :=
  ∀ symbol ∈ rest.head?, symbol.any isNumeral = false

theorem isNumeral_of_isDigit {symbol : Char}
    (hdigit : symbol.isDigit = true) : isNumeral symbol = true := by
  simp [isNumeral, hdigit]

theorem takeWhile_append_stops {p : α → Bool}
    {front rest : List α} (hfront : ∀ symbol ∈ front, p symbol = true)
    (hrest : ∀ symbol ∈ rest.head?, p symbol = false) :
    (front ++ rest).takeWhile p = front ∧
      (front ++ rest).dropWhile p = rest := by
  induction front with
  | nil =>
      cases rest with
      | nil => simp
      | cons symbol rest =>
          have hsymbol := hrest symbol rfl
          simp [hsymbol]
  | cons symbol front ih =>
      have hsymbol := hfront symbol List.mem_cons_self
      have hothers := ih fun other hother =>
        hfront other (List.mem_cons_of_mem symbol hother)
      simp [hsymbol, hothers.1, hothers.2]

theorem isInteger_toString (number : ℕ) :
    isInteger (toString number).toList = true := by
  have hnonempty : (toString number).toList ≠ [] := by
    rw [DecimalText.toList_toString]
    exact Nat.toDigits_ne_nil
  have hdigits : (toString number).toList.all Char.isDigit = true := by
    rw [List.all_eq_true]
    exact fun _ hmem => DecimalText.isDigit_of_mem_toString hmem
  have hfront : (toString number).toList.head? ≠ some '0' ∨
      (toString number).toList.length = 1 := by
    by_cases hlong : 1 < (toString number).toList.length
    · exact Or.inl (DecimalText.head?_toString hlong)
    · have hpositive := List.length_pos_of_ne_nil hnonempty
      exact Or.inr (by omega)
  simp only [isInteger, hdigits, Bool.and_true, Bool.and_eq_true,
    Bool.not_eq_true', List.isEmpty_eq_false_iff, Bool.or_eq_true,
    bne_iff_ne, beq_iff_eq]
  exact ⟨hnonempty, hfront⟩

theorem readNumber_toString
    (value : UInt64) {rest : List Symbol} (hrest : Stops rest) :
    readNumber ((toString value.toNat).toList.map some ++ rest) =
      some (.unsigned value, rest) := by
  have hnumerals : ∀ symbol ∈ (toString value.toNat).toList.map some,
      symbol.any isNumeral = true := by
    intro symbol hsymbol
    obtain ⟨digit, hdigit, rfl⟩ := List.mem_map.mp hsymbol
    exact isNumeral_of_isDigit (DecimalText.isDigit_of_mem_toString hdigit)
  obtain ⟨htake, hdrop⟩ := takeWhile_append_stops hnumerals hrest
  have hvalue : Nat.ofDigitChars 10 (toString value.toNat).toList 0 =
      value.toNat := by
    rw [DecimalText.toList_toString]
    exact Nat.ofDigitChars_ten_toDigits
  have hlimit : value.toNat < 2 ^ 64 := value.toNat_lt
  have htoken : ((toString value.toNat).toList.map some).filterMap id =
      (toString value.toNat).toList := by
    rw [List.filterMap_map]
    exact List.filterMap_some
  simp only [readNumber, htake, hdrop, htoken, isInteger_toString, if_true,
    hvalue, if_pos hlimit, UInt64.ofNat_toNat]

/-! ## Blanks -/

theorem isNumeral_of_isBlank {symbol : Char}
    (hblank : isBlank symbol = true) : isNumeral symbol = false := by
  simp only [isBlank, Bool.or_eq_true, beq_iff_eq] at hblank
  rcases hblank with ((rfl | rfl) | rfl) | rfl <;> decide

/-- The text begins with a symbol that is no blank. -/
def Begins (symbols : List Symbol) (allowed : Char → Prop) : Prop :=
  ∃ symbol rest, symbols = some symbol :: rest ∧ isBlank symbol = false ∧
    allowed symbol

theorem Begins.append {symbols : List Symbol} {allowed : Char → Prop}
    (hbegins : Begins symbols allowed) (rest : List Symbol) :
    Begins (symbols ++ rest) allowed := by
  obtain ⟨symbol, others, rfl, hblank, hallowed⟩ := hbegins
  exact ⟨symbol, others ++ rest, rfl, hblank, hallowed⟩

theorem skipBlanks_cons
    {symbol : Char} (hblank : isBlank symbol = false)
    (rest : List Symbol) :
    skipBlanks (some symbol :: rest) = some symbol :: rest := by
  simp [skipBlanks, hblank]

theorem skipBlanks_append
    {blanks : List Char} {symbols : List Symbol} {allowed : Char → Prop}
    (hblanks : ∀ symbol ∈ blanks, isBlank symbol = true)
    (hbegins : Begins symbols allowed) :
    skipBlanks (blanks.map some ++ symbols) = symbols := by
  obtain ⟨symbol, rest, rfl, hblank, -⟩ := hbegins
  have hskipped : ∀ symbol ∈ blanks.map some,
      symbol.any isBlank = true := by
    intro other hother
    obtain ⟨blank, hmem, rfl⟩ := List.mem_map.mp hother
    exact hblanks blank hmem
  rw [skipBlanks, List.dropWhile_append_of_pos hskipped]
  simp [hblank]

theorem Begins.skipBlanks_eq
    {symbols : List Symbol} {allowed : Char → Prop}
    (hbegins : Begins symbols allowed) : skipBlanks symbols = symbols := by
  obtain ⟨symbol, rest, rfl, hblank, -⟩ := hbegins
  exact skipBlanks_cons hblank rest

/-! ## Elements -/

/-- What is written behind the first of the elements. -/
def writeRest (layout : Layout) (level : ℕ) (closing : Char) :
    List (List Char) → List Char
  | [] => layout.newline level ++ [closing]
  | item :: rest =>
      ',' :: (layout.newline (level + 1) ++
        (item ++ writeRest layout level closing rest))

theorem writeItems_eq (layout : Layout) (level : ℕ) (items : List Json) :
    writeItems layout level items =
      writeRest layout level ']'
        (items.map (writeTree layout (level + 1))) := by
  induction items with
  | nil => simp [writeItems, writeRest]
  | cons item rest ih => simp [writeItems, writeRest, ih]

def writeField (layout : Layout) (level : ℕ) (field : String × Json) :
    List Char :=
  writeText field.1 ++ ':' :: (layout.space ++
    writeTree layout level field.2)

theorem writeFields_eq (layout : Layout) (level : ℕ)
    (fields : List (String × Json)) :
    writeFields layout level fields =
      writeRest layout level '}'
        (fields.map (writeField layout (level + 1))) := by
  induction fields with
  | nil => simp [writeFields, writeRest]
  | cons field rest ih =>
      simp [writeFields, writeRest, writeField, ih]

/-- The reader takes the written element off the front of a text, and finds
this. -/
def Reads (read : List Symbol → Option (β × List Symbol))
    (write : α → List Char) (found : α → β) (item : α) : Prop :=
  ∀ rest, Stops rest →
    read ((write item).map some ++ rest) = some (found item, rest)

theorem stops_writeRest
    (layout : Layout) (level : ℕ) {closing : Char}
    (hclosing : isNumeral closing = false) (items : List (List Char))
    (rest : List Symbol) :
    Stops ((writeRest layout level closing items).map some ++ rest) := by
  intro symbol hsymbol
  cases items with
  | nil =>
      rw [writeRest] at hsymbol
      cases hnewline : layout.newline level with
      | nil =>
          simp only [hnewline, List.nil_append, List.map_cons,
            List.cons_append, List.head?_cons,
            Option.mem_some_iff] at hsymbol
          rw [← hsymbol]
          exact hclosing
      | cons blank blanks =>
          simp only [hnewline, List.cons_append, List.map_cons,
            List.head?_cons, Option.mem_some_iff] at hsymbol
          rw [← hsymbol]
          apply isNumeral_of_isBlank
          apply layout.newline_blank level
          rw [hnewline]
          exact List.mem_cons_self
  | cons item items =>
      simp only [writeRest, List.cons_append, List.map_cons,
        List.head?_cons, Option.mem_some_iff] at hsymbol
      rw [← hsymbol]
      rfl

section Elements

variable {read : List Symbol → Option (β × List Symbol)}
  {write : α → List Char} {found : α → β} {closing : Char}

theorem readRest_writeRest
    (layout : Layout) (level : ℕ) {items : List α} (rest : List Symbol)
    {fuel : ℕ} (hfuel : items.length < fuel)
    (hcomma : closing ≠ ',') (hblank : isBlank closing = false)
    (hclosing : isNumeral closing = false)
    (hbegins : ∀ item ∈ items,
      Begins ((write item).map some) fun _ => True)
    (hreads : ∀ item ∈ items, Reads read write found item) :
    readRest read closing fuel
        ((writeRest layout level closing (items.map write)).map some ++
          rest) =
      some (items.map found, rest) := by
  induction items generalizing fuel with
  | nil =>
      cases fuel with
      | zero => simp at hfuel
      | succ fuel =>
          have hend : Begins (some closing :: rest) fun _ => True :=
            ⟨closing, rest, rfl, hblank, trivial⟩
          have hskip := skipBlanks_append (layout.newline_blank level) hend
          simp [writeRest, readRest, hskip]
  | cons item items ih =>
      cases fuel with
      | zero => simp at hfuel
      | succ fuel =>
          have hothers : items.length < fuel := by
            simpa using hfuel
          have hcommaSkip : ∀ others : List Symbol,
              skipBlanks (some ',' :: others) = some ',' :: others :=
            skipBlanks_cons rfl
          have hother : (some ',' : Symbol) ≠ some closing := fun heq =>
            hcomma (Option.some.inj heq).symm
          have hitem := (hbegins item List.mem_cons_self).append
            ((writeRest layout level closing (items.map write)).map some ++
              rest)
          have hskip :=
            skipBlanks_append (layout.newline_blank (level + 1)) hitem
          have hread := hreads item List.mem_cons_self _
            (stops_writeRest layout level hclosing (items.map write) rest)
          have hrest := ih hothers
            (fun other hother =>
              hbegins other (List.mem_cons_of_mem item hother))
            (fun other hother =>
              hreads other (List.mem_cons_of_mem item hother))
          simp only [List.map_cons, writeRest, List.cons_append,
            List.map_append, List.append_assoc]
          rw [readRest, hcommaSkip]
          simp only [hother, if_false, if_true, hskip, hread]
          simp [hrest]

theorem length_le_writeRest (layout : Layout) (level : ℕ)
    (closing : Char) (items : List (List Char)) :
    items.length < (writeRest layout level closing items).length := by
  induction items with
  | nil => simp [writeRest]
  | cons item items ih =>
      simp only [writeRest, List.length_cons, List.length_append]
      omega

theorem readElements_write
    (layout : Layout) (level : ℕ) (first : α) {items : List α}
    (rest : List Symbol)
    (hcomma : closing ≠ ',') (hblank : isBlank closing = false)
    (hclosing : isNumeral closing = false)
    (hfirst : Begins ((write first).map some)
      fun symbol => symbol ≠ closing)
    (hbegins : ∀ item ∈ items,
      Begins ((write item).map some) fun _ => True)
    (hread : Reads read write found first)
    (hreads : ∀ item ∈ items, Reads read write found item) :
    readElements read closing ((layout.newline (level + 1)).map some ++
        ((write first).map some ++
          ((writeRest layout level closing (items.map write)).map some ++
            rest))) =
      some (found first :: items.map found, rest) := by
  have hbegin := hfirst.append
    ((writeRest layout level closing (items.map write)).map some ++ rest)
  have hskip := skipBlanks_append (layout.newline_blank (level + 1)) hbegin
  have hopen := hread _
    (stops_writeRest layout level hclosing (items.map write) rest)
  have hfuel : items.length <
      ((writeRest layout level closing (items.map write)).map some ++
        rest).length := by
    have hlength := length_le_writeRest layout level closing
      (items.map write)
    rw [List.length_map] at hlength
    rw [List.length_append, List.length_map]
    omega
  have hrest := readRest_writeRest layout level rest hfuel hcomma
    hblank hclosing hbegins hreads
  obtain ⟨symbol, others, heq, -, hother⟩ := hbegin
  have hhead : ((write first).map some ++ ((writeRest layout level closing
      (items.map write)).map some ++ rest)).head? ≠
        some (some closing) := by
    rw [heq]
    simpa using hother
  simp only [readElements, hskip]
  rw [if_neg hhead, hopen]
  simp only [Option.bind_eq_bind, Option.bind_some, hrest, Option.pure_def]

end Elements

/-! ## Trees -/

/-- All numbers in the tree are integers of 64 bits without a sign, and it
has at most so many levels. -/
inductive Json.Within : ℕ → Json → Prop
  | null {depth : ℕ} : Json.Within depth .null
  | bool {depth : ℕ} (value : Bool) : Json.Within depth (.bool value)
  | unsigned {depth : ℕ} (value : UInt64) :
      Json.Within depth (.unsigned value)
  | string {depth : ℕ} (text : String) : Json.Within depth (.string text)
  | array {depth : ℕ} {items : List Json}
      (hitems : ∀ item ∈ items, Json.Within depth item) :
      Json.Within (depth + 1) (.array items)
  | object {depth : ℕ} {fields : List (String × Json)}
      (hfields : ∀ field ∈ fields, Json.Within depth field.2) :
      Json.Within (depth + 1) (.object fields)

theorem Json.Within.mono
    {depth levels : ℕ} {json : Json} (hwithin : json.Within depth)
    (hdepth : depth ≤ levels) : json.Within levels := by
  induction hwithin generalizing levels with
  | null => exact .null
  | bool value => exact .bool value
  | unsigned value => exact .unsigned value
  | string text => exact .string text
  | array _ ih =>
      obtain ⟨levels, rfl⟩ := Nat.exists_eq_add_of_lt hdepth
      exact .array fun item hitem => ih item hitem (by omega)
  | object _ ih =>
      obtain ⟨levels, rfl⟩ := Nat.exists_eq_add_of_lt hdepth
      exact .object fun field hfield => ih field hfield (by omega)

theorem exists_digit (number : ℕ) :
    ∃ digit rest, (toString number).toList = digit :: rest ∧
      digit.isDigit = true := by
  cases hdigits : (toString number).toList with
  | nil =>
      rw [DecimalText.toList_toString] at hdigits
      exact absurd hdigits Nat.toDigits_ne_nil
  | cons digit rest =>
      have hmem : digit ∈ (toString number).toList := by
        rw [hdigits]
        exact List.mem_cons_self
      exact ⟨digit, rest, rfl, DecimalText.isDigit_of_mem_toString hmem⟩

theorem begins_toString (number : ℕ) :
    Begins ((toString number).toList.map some)
      fun symbol => symbol ≠ ']' := by
  obtain ⟨digit, rest, hdigits, hdigit⟩ := exists_digit number
  rw [hdigits]
  refine ⟨digit, rest.map some, rfl, ?_, ?_⟩
  · rw [Bool.eq_false_iff]
    intro hblank
    have hnumeral := isNumeral_of_isBlank hblank
    rw [isNumeral_of_isDigit hdigit] at hnumeral
    cases hnumeral
  · rintro rfl
    cases hdigit

theorem begins_writeTree
    (layout : Layout) (level : ℕ) {depth : ℕ} {json : Json}
    (hwithin : json.Within depth) :
    Begins ((writeTree layout level json).map some)
      fun symbol => symbol ≠ ']' := by
  cases hwithin with
  | null => exact ⟨'n', _, by rw [writeTree]; rfl, rfl, by decide⟩
  | bool value =>
      cases value with
      | false => exact ⟨'f', _, by rw [writeTree]; rfl, rfl, by decide⟩
      | true => exact ⟨'t', _, by rw [writeTree]; rfl, rfl, by decide⟩
  | unsigned value =>
      rw [writeTree]
      exact begins_toString value.toNat
  | string text =>
      exact ⟨'"', _, by rw [writeTree, writeText]; rfl, rfl, by decide⟩
  | @array _ items _ =>
      cases items with
      | nil => exact ⟨'[', _, by rw [writeTree]; rfl, rfl, by decide⟩
      | cons item rest =>
          exact ⟨'[', _, by rw [writeTree]; rfl, rfl, by decide⟩
  | @object _ fields _ =>
      cases fields with
      | nil => exact ⟨'{', _, by rw [writeTree]; rfl, rfl, by decide⟩
      | cons field rest =>
          exact ⟨'{', _, by rw [writeTree]; rfl, rfl, by decide⟩

theorem readField_writeField
    {depth : ℕ} (layout : Layout) (level : ℕ) (field : String × Json)
    (hbegins : Begins ((writeTree layout level field.2).map some)
      fun _ => True)
    (hread : Reads (readValue depth) (writeTree layout level) id field.2) :
    Reads (readField (readValue depth)) (writeField layout level)
      (fun field => (some field.1, field.2)) field := by
  intro rest hrest
  have hskip := skipBlanks_append layout.space_blank (hbegins.append rest)
  have hcolon : ∀ others : List Symbol,
      skipBlanks (some ':' :: others) = some ':' :: others :=
    skipBlanks_cons rfl
  simp only [writeField, writeText, List.map_cons, List.map_append,
    List.cons_append, List.append_assoc, List.nil_append, readField,
    readQuoted_writeText, Option.bind_eq_bind, Option.bind_some, hcolon,
    hskip, hread rest hrest, Option.pure_def, id]

theorem readScalar_unsigned (value : UInt64) {rest : List Symbol}
    (hrest : Stops rest) :
    readScalar ((toString value.toNat).toList.map some ++ rest) =
      some (.unsigned value, rest) := by
  obtain ⟨digit, digits, hdigits, hdigit⟩ := exists_digit value.toNat
  rw [← readNumber_toString value hrest, hdigits, List.map_cons,
    List.cons_append]
  unfold readScalar
  split
  · rename_i heq
    rw [Option.some.inj (List.cons.inj heq).1] at hdigit
    cases hdigit
  · rename_i heq
    rw [Option.some.inj (List.cons.inj heq).1] at hdigit
    cases hdigit
  · rename_i heq
    rw [Option.some.inj (List.cons.inj heq).1] at hdigit
    cases hdigit
  · rename_i heq
    rw [Option.some.inj (List.cons.inj heq).1] at hdigit
    cases hdigit
  · rfl

theorem readScalar_writeTree
    (layout : Layout) (level : ℕ) {json : Json} {rest : List Symbol}
    (hrest : Stops rest) (hwithin : json.Within 0) :
    readScalar ((writeTree layout level json).map some ++ rest) =
      some (json, rest) := by
  cases hwithin with
  | null =>
      rw [writeTree]
      rfl
  | bool value =>
      cases value <;>
        (rw [writeTree]
         rfl)
  | unsigned value =>
      rw [writeTree]
      exact readScalar_unsigned value hrest
  | string text =>
      simp only [writeTree, writeText, List.map_cons, List.map_append,
        List.map_nil, List.cons_append, List.append_assoc, List.nil_append,
        readScalar, readQuoted_writeText, Option.bind_eq_bind,
        Option.bind_some, Option.pure_def, Option.elim_some]

/-- Without a bracket in front no level is used up. -/
theorem readValue_of_readScalar
    {symbols rest : List Symbol} {json : Json}
    (harray : symbols.head? ≠ some (some '['))
    (hobject : symbols.head? ≠ some (some '{'))
    (hread : readScalar symbols = some (json, rest)) (depth : ℕ) :
    readValue depth symbols = some (json, rest) := by
  cases depth with
  | zero => rw [readValue, hread]
  | succ depth =>
      rw [readValue]
      · exact hread
      · rintro others rfl
        simp at harray
      · rintro others rfl
        simp at hobject

theorem head?_writeTree_scalar
    (layout : Layout) (level : ℕ) {json : Json} (rest : List Symbol)
    (hwithin : json.Within 0) :
    ((writeTree layout level json).map some ++ rest).head? ≠
        some (some '[') ∧
      ((writeTree layout level json).map some ++ rest).head? ≠
        some (some '{') := by
  cases hwithin with
  | null => simp [writeTree]
  | bool value => cases value <;> simp [writeTree]
  | unsigned value =>
      obtain ⟨digit, digits, hdigits, hdigit⟩ := exists_digit value.toNat
      rw [writeTree, hdigits]
      constructor <;>
        (intro hhead
         simp only [List.map_cons, List.cons_append, List.head?_cons,
           Option.some.injEq] at hhead
         rw [hhead] at hdigit
         cases hdigit)
  | string text => simp [writeTree, writeText]

theorem reads_scalar
    (layout : Layout) {json : Json} (hwithin : json.Within 0)
    (depth level : ℕ) :
    Reads (readValue depth) (writeTree layout level) id json := by
  intro rest hrest
  have hhead := head?_writeTree_scalar layout level rest hwithin
  exact readValue_of_readScalar hhead.1 hhead.2
    (readScalar_writeTree layout level hrest hwithin) depth

theorem objectOf_some (fields : List (String × Json)) :
    objectOf (fields.map fun field => (some field.1, field.2)) =
      .object fields := by
  have hnames : (fields.map fun field => (some field.1, field.2)).mapM
      (fun field : Option String × Json =>
        field.1.map fun name => (name, field.2)) = some fields := by
    induction fields with
    | nil => rfl
    | cons field rest ih =>
        rw [List.map_cons, List.mapM_cons, ih]
        rfl
  rw [objectOf, hnames]

theorem reads_writeTree
    (layout : Layout) {depth : ℕ} {json : Json}
    (hwithin : json.Within depth) (level : ℕ) :
    Reads (readValue depth) (writeTree layout level) id json := by
  induction hwithin generalizing level with
  | null => exact reads_scalar layout .null _ level
  | bool value => exact reads_scalar layout (.bool value) _ level
  | unsigned value => exact reads_scalar layout (.unsigned value) _ level
  | string text => exact reads_scalar layout (.string text) _ level
  | @array depth items hitems ih =>
      intro rest hrest
      cases items with
      | nil =>
          simp [writeTree, readValue, readElements, skipBlanks, isBlank]
      | cons item items =>
          have hbegins : ∀ other ∈ items,
              Begins ((writeTree layout (level + 1) other).map some)
                fun _ => True := by
            intro other hother
            obtain ⟨symbol, others, heq, hblank, -⟩ :=
              begins_writeTree layout (level + 1)
                (hitems other (List.mem_cons_of_mem item hother))
            exact ⟨symbol, others, heq, hblank, trivial⟩
          have helements := readElements_write layout level item rest
            (show ']' ≠ ',' by decide) rfl rfl
            (begins_writeTree layout (level + 1)
              (hitems item List.mem_cons_self))
            hbegins (ih item List.mem_cons_self (level + 1))
            (fun other hother =>
              ih other (List.mem_cons_of_mem item hother) (level + 1))
          simp only [writeTree, writeItems_eq, List.map_cons,
            List.map_append, List.cons_append, List.append_assoc, readValue,
            helements, Option.bind_eq_bind, Option.bind_some,
            Option.pure_def, List.map_id, id]
  | @object depth fields hfields ih =>
      intro rest hrest
      cases fields with
      | nil =>
          simp [writeTree, readValue, readElements, skipBlanks, isBlank,
            objectOf]
      | cons field fields =>
          have hquote : ∀ other : String × Json, ∀ allowed : Char → Prop,
              allowed '"' →
                Begins ((writeField layout (level + 1) other).map some)
                  allowed :=
            fun other allowed hallowed => ⟨'"', _, rfl, rfl, hallowed⟩
          have hread : ∀ other ∈ field :: fields,
              Reads (readField (readValue depth))
                (writeField layout (level + 1))
                (fun field => (some field.1, field.2)) other := by
            intro other hother
            obtain ⟨symbol, others, heq, hblank, -⟩ :=
              begins_writeTree layout (level + 1) (hfields other hother)
            exact readField_writeField layout (level + 1) other
              ⟨symbol, others, heq, hblank, trivial⟩
              (ih other hother (level + 1))
          have helements := readElements_write layout level field rest
            (show '}' ≠ ',' by decide) rfl rfl
            (hquote field _ (by decide))
            (fun other _ => hquote other _ trivial)
            (hread field List.mem_cons_self)
            (fun other hother =>
              hread other (List.mem_cons_of_mem field hother))
          have hobject := objectOf_some (field :: fields)
          simp only [writeTree, writeFields_eq, List.map_cons,
            List.map_append, List.cons_append, List.append_assoc, readValue,
            Option.bind_eq_bind]
          simp only [writeField, List.map_cons, List.map_append,
            List.cons_append, List.append_assoc] at helements
          rw [List.map_cons] at hobject
          simp only [helements, Option.bind_some, Option.pure_def, hobject,
            id]

/-! ## Whole texts -/

theorem length_lt_writeRest
    (layout : Layout) (level : ℕ) (closing : Char)
    {items : List (List Char)} {item : List Char} (hitem : item ∈ items) :
    item.length < (writeRest layout level closing items).length := by
  induction items with
  | nil => cases hitem
  | cons first rest ih =>
      simp only [writeRest, List.length_cons, List.length_append]
      rcases List.mem_cons.mp hitem with rfl | hrest
      · omega
      · have hlength := ih hrest
        omega

theorem length_lt_writeTree_array
    (layout : Layout) (level : ℕ) {items : List Json} {item : Json}
    (hitem : item ∈ items) :
    (writeTree layout (level + 1) item).length <
      (writeTree layout level (.array items)).length := by
  cases items with
  | nil => cases hitem
  | cons first rest =>
      simp only [writeTree, writeItems_eq, List.length_cons,
        List.length_append]
      rcases List.mem_cons.mp hitem with rfl | hrest
      · omega
      · have hlength := length_lt_writeRest layout level ']'
          (List.mem_map_of_mem (f := writeTree layout (level + 1)) hrest)
        omega

theorem length_lt_writeTree_object
    (layout : Layout) (level : ℕ) {fields : List (String × Json)}
    {field : String × Json} (hfield : field ∈ fields) :
    (writeTree layout (level + 1) field.2).length <
      (writeTree layout level (.object fields)).length := by
  cases fields with
  | nil => cases hfield
  | cons first rest =>
      simp only [writeTree, writeFields_eq, List.length_cons,
        List.length_append]
      rcases List.mem_cons.mp hfield with rfl | hrest
      · omega
      · have hlength := length_lt_writeRest layout level '}'
          (List.mem_map_of_mem (f := writeField layout (level + 1)) hrest)
        simp only [writeField, List.length_append,
          List.length_cons] at hlength
        omega

/-- A tree has no more levels than its text has symbols. -/
theorem Json.Within.length
    {depth : ℕ} {json : Json} (hwithin : json.Within depth)
    (layout : Layout) (level : ℕ) :
    json.Within (writeTree layout level json).length := by
  induction hwithin generalizing level with
  | null => exact .null
  | bool value => exact .bool value
  | unsigned value => exact .unsigned value
  | string text => exact .string text
  | @array _ items _ ih =>
      have hpositive : 0 < (writeTree layout level (.array items)).length :=
        by cases items <;> simp [writeTree]
      obtain ⟨levels, hlevels⟩ := Nat.exists_eq_add_one.mpr hpositive
      rw [hlevels]
      refine .array fun item hitem => (ih item hitem (level + 1)).mono ?_
      have hlength := length_lt_writeTree_array layout level hitem
      omega
  | @object _ fields _ ih =>
      have hpositive : 0 < (writeTree layout level (.object fields)).length :=
        by cases fields <;> simp [writeTree]
      obtain ⟨levels, hlevels⟩ := Nat.exists_eq_add_one.mpr hpositive
      rw [hlevels]
      refine .object fun field hfield =>
        (ih field hfield (level + 1)).mono ?_
      have hlength := length_lt_writeTree_object layout level hfield
      omega

theorem readSymbols_writeTree
    (layout : Layout) {depth : ℕ} {json : Json}
    (hwithin : json.Within depth) :
    readSymbols ((writeTree layout 0 json).map some) = some json := by
  have hskip := (begins_writeTree layout 0 hwithin).skipBlanks_eq
  have hread := reads_writeTree layout (hwithin.length layout 0) 0 []
    (by intro symbol; simp)
  rw [List.append_nil] at hread
  rw [readSymbols, hskip, List.length_map, hread]
  rfl

theorem readJson_writeJson
    (layout : Layout) {depth : ℕ} {json : Json}
    (hwithin : json.Within depth) :
    readJson (writeJson layout json) = some json := by
  rw [readJson, writeJson, String.toList_ofList,
    readSymbols_writeTree layout hwithin]

theorem readBytes_writeJson
    (layout : Layout) {depth : ℕ} {json : Json}
    (hwithin : json.Within depth) :
    readBytes (writeJson layout json).toUTF8.toList = some json := by
  rw [readBytes, symbolsOf_toUTF8]
  exact readJson_writeJson layout hwithin

theorem itemsBuffered_iff {depth : ℕ} {items : List Json} :
    itemsBuffered depth items = true ↔
      ∀ item ∈ items, item.isBuffered depth = true := by
  induction items with
  | nil => simp [itemsBuffered]
  | cons item rest ih => simp [itemsBuffered, ih]

theorem fieldsBuffered_iff {depth : ℕ} {fields : List (String × Json)} :
    fieldsBuffered depth fields = true ↔
      ∀ field ∈ fields, field.2.isBuffered depth = true := by
  induction fields with
  | nil => simp [fieldsBuffered]
  | cons field rest ih => simp [fieldsBuffered, ih]

theorem Json.Within.isBuffered
    {depth : ℕ} {json : Json} (hwithin : json.Within depth) :
    json.isBuffered depth = true := by
  induction hwithin with
  | null => simp [Json.isBuffered]
  | bool value => simp [Json.isBuffered]
  | unsigned value => simp [Json.isBuffered]
  | string text => simp [Json.isBuffered]
  | array _ ih =>
      rw [Json.isBuffered, itemsBuffered_iff]
      exact ih
  | object _ ih =>
      rw [Json.isBuffered, fieldsBuffered_iff]
      exact ih

/-! ## Records -/

theorem Json.within_writeOption
    {write : α → Json} {depth : ℕ}
    (hwrite : ∀ value, (write value).Within depth) (value : Option α) :
    (writeOption write value).Within depth := by
  cases value with
  | none => exact .null
  | some value => exact hwrite value

theorem Json.within_writeList
    {write : α → Json} {depth : ℕ} {values : List α}
    (hwrite : ∀ value ∈ values, (write value).Within depth) :
    (writeList write values).Within (depth + 1) := by
  apply Json.Within.array
  intro item hitem
  obtain ⟨value, hvalue, rfl⟩ := List.mem_map.mp hitem
  exact hwrite value hvalue

/-- How the values of a type are written as trees and read from them. -/
structure RecordFormat (α : Type) where
  serialize : α → Json
  deserialize : Json → Option α
  within : ∀ value, (serialize value).Within maxLevels
  deserialize_serialize : ∀ value,
    deserialize (serialize value) = some value

def RecordFormat.toText (format : RecordFormat α) (layout : Layout)
    (value : α) : String :=
  writeJson layout (format.serialize value)

def RecordFormat.ofText (format : RecordFormat α) (text : String) :
    Option α := do
  let json ← readJson text
  format.deserialize json

@[simp]
theorem RecordFormat.ofText_toText (format : RecordFormat α)
    (layout : Layout) (value : α) :
    format.ofText (format.toText layout value) = some value := by
  rw [ofText, toText, readJson_writeJson layout (format.within value)]
  exact format.deserialize_serialize value

end JsonRecords

import AlephCvm.GrpcService
import AlephCvm.SplitText

/-!
# Addresses read from their texts

Model of `Ipv4Addr::from_str`, and the round trips of both kinds of addresses
with the texts that they are displayed as.  An octet has one to three digits
and no leading zero, a group has one to four digits, and the groups that an
IPv6 text leaves out between two colons are a longest run of zeros.  The
reader tries an embedded IPv4 address in front of every group, which no text
without a dot contains.
-/

namespace AlephCvm.Net

open AlephCvm.Grpc SplitText

/-- `Ipv4Addr::from_str`. -/
def parseIpv4Addr (text : String) : Option Ipv4Addr :=
  if 15 < text.utf8ByteSize then none
  else
    match readIpv4Addr text.toList with
    | some ([high, low], []) => some (UInt32.ofNat (high * 65536 + low))
    | _ => none

/-! ## Numbers -/

theorem length_filterMap_of_isSome
    {α β : Type} {read : α → Option β} {items : List α}
    (hall : (items.all fun item => (read item).isSome) = true) :
    (items.filterMap read).length = items.length := by
  induction items with
  | nil => rfl
  | cons item rest ih =>
      rw [List.all_cons, Bool.and_eq_true] at hall
      obtain ⟨value, hvalue⟩ := Option.isSome_iff_exists.mp hall.1
      rw [List.filterMap_cons_some hvalue, List.length_cons, ih hall.2,
        List.length_cons]

/-- The text spells the number with digits of the radix. -/
structure Spells (radix : ℕ) (text : List Char) (value : ℕ) : Prop where
  digits : (text.all fun char => (digitValue radix char).isSome) = true
  nonempty : text ≠ []
  value : (text.filterMap (digitValue radix)).foldl
    (fun value digit => value * radix + digit) 0 = value

/-- A symbol that is no digit does not occur in a number. -/
theorem Spells.notMem
    {radix value : ℕ} {text : List Char} {char : Char}
    (hspells : Spells radix text value)
    (hchar : digitValue radix char = none) : char ∉ text := by
  intro hmem
  have hdigit := List.all_eq_true.mp hspells.digits char hmem
  rw [hchar] at hdigit
  cases hdigit

/-- The text behind a number does not begin with a digit. -/
def Ends (radix : ℕ) (rest : List Char) : Prop :=
  ∀ char ∈ rest.head?, digitValue radix char = none

theorem Spells.readNumber_append
    {radix maxDigits bound value : ℕ} {allowZeroPrefix : Bool}
    {text rest : List Char} (hspells : Spells radix text value)
    (hlength : text.length ≤ maxDigits) (hbound : value ≤ bound)
    (hzero : allowZeroPrefix = false → text.head? = some '0' →
      text.length = 1) (hends : Ends radix rest) :
    readNumber radix maxDigits bound allowZeroPrefix (text ++ rest) =
      some (value, rest) := by
  have htake : (text ++ rest).takeWhile
      (fun char => (digitValue radix char).isSome) = text := by
    rw [List.takeWhile_append_of_pos (List.all_eq_true.mp hspells.digits)]
    cases rest with
    | nil => simp
    | cons char others =>
        have hchar := hends char rfl
        simp [hchar]
  have hcount := length_filterMap_of_isSome hspells.digits
  have hpositive := List.length_pos_iff.mpr hspells.nonempty
  have hfront : ¬ (text.length = 0 ∨ maxDigits < text.length) := by
    omega
  have hhead : (text ++ rest).head? = text.head? :=
    List.head?_append_of_ne_nil text hspells.nonempty
  have hplain : ¬ (allowZeroPrefix = false ∧ text.head? = some '0' ∧
      1 < text.length) := by
    rintro ⟨hstrict, hfirst, hlong⟩
    have hone := hzero hstrict hfirst
    omega
  have hvalue := hspells.value
  simp only [readNumber, htake, hcount, hvalue, hhead, if_neg hfront,
    if_neg hplain, if_neg (Nat.not_lt.mpr hbound), List.drop_left]

/-- A number cannot begin with anything but a digit. -/
theorem readNumber_of_ends
    {radix : ℕ} (maxDigits bound : ℕ) (allowZeroPrefix : Bool)
    {chars : List Char} (hends : Ends radix chars) :
    readNumber radix maxDigits bound allowZeroPrefix chars = none := by
  have htake : chars.takeWhile
      (fun char => (digitValue radix char).isSome) = [] := by
    cases chars with
    | nil => rfl
    | cons char others =>
        have hchar := hends char rfl
        simp [hchar]
  simp [readNumber, htake]

theorem ends_cons {radix : ℕ} {char : Char}
    (hchar : digitValue radix char = none) (others : List Char) :
    Ends radix (char :: others) := by
  intro first hfirst
  obtain rfl := Option.some.inj hfirst
  exact hchar

theorem ends_nil {radix : ℕ} : Ends radix [] := by
  simp [Ends]

/-! ## IPv4 addresses -/

/-- The digits of a number below 256 pass all checks on an octet. -/
theorem octet_digits : ∀ octet : Fin 256,
    let text := (toString octet.val).toList
    (text.all fun char => (digitValue 10 char).isSome) = true ∧
      text ≠ [] ∧ (text.filterMap (digitValue 10)).foldl
        (fun value digit => value * 10 + digit) 0 = octet.val ∧
      text.length ≤ 3 ∧ (text.head? = some '0' → text.length = 1) ∧
      (toString octet.val).utf8ByteSize ≤ 3 := by
  decide +kernel

theorem spells_octet (octet : Fin 256) :
    Spells 10 (toString octet.val).toList octet.val := by
  obtain ⟨hdigits, hnonempty, hvalue, -⟩ := octet_digits octet
  exact ⟨hdigits, hnonempty, hvalue⟩

theorem readNumber_octet
    {octet bound : ℕ} (hoctet : octet < 256) (hbound : octet ≤ bound)
    {rest : List Char} (hends : Ends 10 rest) :
    readNumber 10 3 bound false ((toString octet).toList ++ rest) =
      some (octet, rest) := by
  obtain ⟨-, -, -, hlength, hzero, -⟩ := octet_digits ⟨octet, hoctet⟩
  exact (spells_octet ⟨octet, hoctet⟩).readNumber_append hlength hbound
    (fun _ => hzero) hends

theorem readSeparated_octet
    (octet : UInt8) {rest : List Char} (hends : Ends 10 rest) :
    readSeparated '.' false (readNumber 10 3 255 false)
        ('.' :: ((toString octet.toNat).toList ++ rest)) =
      some (octet.toNat, rest) := by
  simp only [readSeparated, Bool.false_eq_true, if_false, if_true]
  exact readNumber_octet octet.toNat_lt (Nat.le_of_lt_succ octet.toNat_lt)
    hends

theorem ipv4Text_eq (ip : Ipv4Addr) :
    ipv4Text ip = toString (octets ip).1.toNat ++ "." ++
      toString (octets ip).2.1.toNat ++ "." ++
      toString (octets ip).2.2.1.toNat ++ "." ++
      toString (octets ip).2.2.2.toNat := rfl

theorem toList_ipv4Text (ip : Ipv4Addr) :
    (ipv4Text ip).toList =
      (toString (octets ip).1.toNat).toList ++
        ('.' :: ((toString (octets ip).2.1.toNat).toList ++
          ('.' :: ((toString (octets ip).2.2.1.toNat).toList ++
            ('.' :: ((toString (octets ip).2.2.2.toNat).toList ++
              [])))))) := by
  rw [ipv4Text_eq]
  simp [String.toList_append]

theorem readIpv4Addr_ipv4Text (ip : Ipv4Addr) :
    readIpv4Addr (ipv4Text ip).toList =
      some ([(octets ip).1.toNat * 256 + (octets ip).2.1.toNat,
        (octets ip).2.2.1.toNat * 256 + (octets ip).2.2.2.toNat], []) := by
  have hdot : ∀ others : List Char, Ends 10 ('.' :: others) :=
    ends_cons rfl
  have hfirst := (octets ip).1.toNat_lt
  rw [toList_ipv4Text]
  simp only [readIpv4Addr, readNumber_octet hfirst
    (Nat.le_of_lt_succ hfirst) (hdot _), readSeparated_octet _ (hdot _),
    readSeparated_octet _ ends_nil, Option.bind_eq_bind, Option.bind_some,
    Option.pure_def]

theorem utf8ByteSize_ipv4Text (ip : Ipv4Addr) :
    (ipv4Text ip).utf8ByteSize ≤ 15 := by
  have hoctet : ∀ octet : UInt8,
      (toString octet.toNat).utf8ByteSize ≤ 3 := fun octet =>
    (octet_digits ⟨octet.toNat, octet.toNat_lt⟩).2.2.2.2.2
  have hfirst := hoctet (octets ip).1
  have hsecond := hoctet (octets ip).2.1
  have hthird := hoctet (octets ip).2.2.1
  have hlast := hoctet (octets ip).2.2.2
  have hseparator : ".".utf8ByteSize = 1 := rfl
  rw [ipv4Text_eq]
  simp only [String.utf8ByteSize_append, hseparator]
  omega

/-- The four octets make up the address. -/
theorem octets_value (ip : Ipv4Addr) :
    ((octets ip).1.toNat * 256 + (octets ip).2.1.toNat) * 65536 +
      ((octets ip).2.2.1.toNat * 256 + (octets ip).2.2.2.toNat) =
        ip.toNat := by
  have hlt := ip.toNat_lt
  simp only [octets, UInt32.toNat_toUInt8, UInt32.toNat_shiftRight,
    UInt32.reduceToNat, Nat.shiftRight_eq_div_pow, Nat.reduceMod,
    Nat.reducePow]
  omega

/-- What an address is displayed as is read as the address. -/
@[simp]
theorem parseIpv4Addr_ipv4Text (ip : Ipv4Addr) :
    parseIpv4Addr (ipv4Text ip) = some ip := by
  have hsize := utf8ByteSize_ipv4Text ip
  unfold parseIpv4Addr
  rw [if_neg (by omega), readIpv4Addr_ipv4Text]
  simp only [octets_value, UInt32.ofNat_toNat]

/-! ## Groups -/

theorem digitValue_digitChar : ∀ digit : Fin 16,
    digitValue 16 (Nat.digitChar digit.val) = some digit.val := by
  decide

theorem spells_toDigits (value : ℕ) :
    Spells 16 (Nat.toDigits 16 value) value := by
  induction value using Nat.strongRecOn with
  | ind value ih =>
      by_cases hsmall : value < 16
      · have hdigit := digitValue_digitChar ⟨value, hsmall⟩
        rw [Nat.toDigits_of_lt_base hsmall]
        exact ⟨by simp [hdigit], by simp, by simp [hdigit]⟩
      · have hlow : value % 16 < 16 := Nat.mod_lt value (by decide)
        have hdigit := digitValue_digitChar ⟨value % 16, hlow⟩
        have hhigh := ih (value / 16) (by omega)
        rw [Nat.toDigits_of_base_le (by decide) (by omega)]
        refine ⟨?_, by simp, ?_⟩
        · rw [List.all_append, hhigh.digits]
          simp [hdigit]
        · rw [List.filterMap_append, List.foldl_append, hhigh.value]
          simp only [List.filterMap_cons, hdigit, List.filterMap_nil,
            List.foldl_cons, List.foldl_nil]
          omega

theorem readNumber_group
    {group : ℕ} (hgroup : group < 65536) {rest : List Char}
    (hends : Ends 16 rest) :
    readNumber 16 4 65535 true ((hexNat group).toList ++ rest) =
      some (group, rest) := by
  have hlength : (Nat.toDigits 16 group).length ≤ 4 :=
    (Nat.length_toDigits_le_iff (by decide) (by decide)).mpr
      (by simpa using hgroup)
  rw [hexNat, String.toList_ofList]
  exact (spells_toDigits group).readNumber_append hlength (by omega)
    (by simp) hends

theorem notMem_hexNat {char : Char} (hchar : digitValue 16 char = none)
    (group : ℕ) : char ∉ (hexNat group).toList := by
  rw [hexNat, String.toList_ofList]
  exact (spells_toDigits group).notMem hchar

/-- An embedded address has a dot. -/
theorem readIpv4Addr_eq_none
    {chars : List Char} (hdot : '.' ∉ chars) :
    readIpv4Addr chars = none := by
  simp only [readIpv4Addr, Option.bind_eq_bind]
  cases hfirst : readNumber 10 3 255 false chars with
  | none => rfl
  | some found =>
      obtain ⟨first, rest⟩ := found
      have hrest : '.' ∉ rest := by
        unfold readNumber at hfirst
        dsimp only at hfirst
        split_ifs at hfirst
        cases hfirst
        intro hmem
        exact hdot (List.mem_of_mem_drop hmem)
      have hsecond : readSeparated '.' false (readNumber 10 3 255 false)
          rest = none := by
        cases rest with
        | nil => rfl
        | cons char others =>
            have hchar : char ≠ '.' := by
              rintro rfl
              exact hrest List.mem_cons_self
            simp [readSeparated, hchar]
      simp only [Option.bind_some, hsecond, Option.bind_none]

/-- Groups as they are written: with a colon in front of each but the
first. -/
def writeGroups : Bool → List ℕ → List Char
  | _, [] => []
  | true, group :: rest => (hexNat group).toList ++ writeGroups false rest
  | false, group :: rest =>
      ':' :: ((hexNat group).toList ++ writeGroups false rest)

theorem toList_joinSegments (segments : List ℕ) :
    (joinSegments segments).toList = writeGroups true segments := by
  induction segments with
  | nil => rfl
  | cons group rest ih =>
      cases rest with
      | nil => simp [joinSegments, writeGroups]
      | cons next others =>
          have hjoin : joinSegments (group :: next :: others) =
              hexNat group ++ ":" ++ joinSegments (next :: others) :=
            String.intercalate_cons_cons
          rw [hjoin, String.toList_append, String.toList_append, ih]
          simp [writeGroups]

theorem notMem_writeGroups
    {char : Char} (hchar : digitValue 16 char = none) (hcolon : char ≠ ':')
    (first : Bool) (segments : List ℕ) :
    char ∉ writeGroups first segments := by
  induction segments generalizing first with
  | nil => simp [writeGroups]
  | cons group rest ih =>
      have hgroup := notMem_hexNat hchar group
      cases first with
      | true => simp [writeGroups, hgroup, ih]
      | false => simp [writeGroups, hgroup, ih, hcolon]

theorem readSeparated_eq_none
    {chars : List Char} (hdot : '.' ∉ chars) (first : Bool) :
    readSeparated ':' first readIpv4Addr chars = none := by
  cases first with
  | true => exact readIpv4Addr_eq_none hdot
  | false =>
      cases chars with
      | nil => rfl
      | cons char others =>
          have hothers : '.' ∉ others := fun hmem =>
            hdot (List.mem_cons_of_mem char hmem)
          simp [readSeparated, readIpv4Addr_eq_none hothers]

/-- No further group begins here. -/
def GroupsEnd (first : Bool) (rest : List Char) : Prop :=
  readSeparated ':' first (readNumber 16 4 65535 true) rest = none

/-- The groups that were written are read, when no more are allowed or none
follows. -/
theorem readGroups_writeGroups
    {limit : ℕ} {first : Bool} {segments : List ℕ} {rest : List Char}
    (hsegments : ∀ group ∈ segments, group < 65536)
    (hdot : '.' ∉ rest) (hends : Ends 16 rest)
    (hlimit : segments.length ≤ limit)
    (hlast : segments.length = limit ∨
      GroupsEnd (first && segments.isEmpty) rest) :
    readGroups limit first (writeGroups first segments ++ rest) =
      (segments, false, rest) := by
  have hnoDot : '.' ∉ writeGroups first segments ++ rest := by
    rw [List.mem_append]
    rintro (hmem | hmem)
    · exact notMem_writeGroups rfl (by decide) first segments hmem
    · exact hdot hmem
  induction segments generalizing limit first with
  | nil =>
      cases limit with
      | zero => rfl
      | succ left =>
          have hend : GroupsEnd first rest := by
            rcases hlast with hfull | hend
            · simp at hfull
            · simpa using hend
          unfold GroupsEnd at hend
          simp only [readGroups, writeGroups, List.nil_append,
            readSeparated_eq_none hdot, ite_self, hend]
  | cons group others ih =>
      cases limit with
      | zero => simp at hlimit
      | succ left =>
          rw [List.forall_mem_cons] at hsegments
          have hnext : Ends 16 (writeGroups false others ++ rest) := by
            cases others with
            | nil => exact hends
            | cons next later => exact ends_cons rfl _
          have hgroup : readSeparated ':' first
              (readNumber 16 4 65535 true)
              (writeGroups first (group :: others) ++ rest) =
                some (group, writeGroups false others ++ rest) := by
            cases first with
            | true =>
                simp only [readSeparated, if_true, writeGroups,
                  List.append_assoc]
                exact readNumber_group hsegments.1 hnext
            | false =>
                simp only [readSeparated, Bool.false_eq_true, if_false,
                  writeGroups, List.cons_append, List.append_assoc,
                  if_true]
                exact readNumber_group hsegments.1 hnext
          have hothers : readGroups left false
              (writeGroups false others ++ rest) = (others, false, rest) := by
            apply ih hsegments.2
            · simpa using hlimit
            · rcases hlast with hfull | hend
              · left
                simpa using hfull
              · right
                simpa using hend
            · rw [List.mem_append]
              rintro (hmem | hmem)
              · exact notMem_writeGroups rfl (by decide) false others hmem
              · exact hdot hmem
          simp only [readGroups, readSeparated_eq_none hnoDot, ite_self,
            hgroup, hothers]

/-! ## The longest run of zeros -/

/-- The segments in this span are zeros. -/
def ZeroSpan (segments : List ℕ) (span : ℕ × ℕ) : Prop :=
  ∃ front back, segments = front ++ (List.replicate span.2 0 ++ back) ∧
    front.length = span.1

/-- The segments end with a run of zeros that begins at this place. -/
def ZerosLast (segments : List ℕ) (run : ℕ × ℕ) : Prop :=
  ∃ front, segments = front ++ List.replicate run.2 0 ∧
    (0 < run.2 → front.length = run.1)

/-- One step of the scan: the longest run so far and the current one. -/
def scanZeros (spans : (ℕ × ℕ) × (ℕ × ℕ)) (entry : ℕ × ℕ) :
    (ℕ × ℕ) × (ℕ × ℕ) :=
  let (longest, current) := spans
  if entry.1 = 0 then
    let current :=
      if current.2 = 0 then (entry.2, 1) else (current.1, current.2 + 1)
    (if longest.2 < current.2 then current else longest, current)
  else (longest, (0, 0))

theorem longestZeros_eq (segments : List ℕ) :
    longestZeros segments =
      (segments.zipIdx.foldl scanZeros ((0, 0), (0, 0))).1 := rfl

theorem ZeroSpan.append {segments : List ℕ} {span : ℕ × ℕ}
    (hspan : ZeroSpan segments span) (more : List ℕ) :
    ZeroSpan (segments ++ more) span := by
  obtain ⟨front, back, rfl, hlength⟩ := hspan
  exact ⟨front, back ++ more, by simp, hlength⟩

theorem ZerosLast.span {segments : List ℕ} {run : ℕ × ℕ}
    (hlast : ZerosLast segments run) (hpositive : 0 < run.2) :
    ZeroSpan segments run := by
  obtain ⟨front, rfl, hlength⟩ := hlast
  exact ⟨front, [], by simp, hlength hpositive⟩

theorem ZerosLast.grow
    {front : List ℕ} {run : ℕ × ℕ} (hlast : ZerosLast front run) :
    ZerosLast (front ++ [0])
      (if run.2 = 0 then (front.length, 1) else (run.1, run.2 + 1)) := by
  obtain ⟨head, hfront, hlength⟩ := hlast
  split_ifs with hempty
  · exact ⟨front, rfl, fun _ => rfl⟩
  · refine ⟨head, ?_, fun _ => hlength (by omega)⟩
    rw [hfront, List.append_assoc, List.replicate_succ']

theorem foldl_scanZeros
    (rest front : List ℕ) (spans : (ℕ × ℕ) × (ℕ × ℕ))
    (hlongest : ZeroSpan front spans.1) (hcurrent : ZerosLast front spans.2) :
    ZeroSpan (front ++ rest)
      ((rest.zipIdx front.length).foldl scanZeros spans).1 := by
  induction rest generalizing front spans with
  | nil => simpa using hlongest
  | cons segment rest ih =>
      have hsplit : front ++ segment :: rest = (front ++ [segment]) ++ rest :=
        by simp
      have hcount : front.length + 1 = (front ++ [segment]).length := by simp
      rw [hsplit, List.zipIdx_cons, List.foldl_cons, hcount]
      apply ih
      · by_cases hzero : segment = 0
        · subst hzero
          simp only [scanZeros, if_true]
          split_ifs with hempty hlonger hlonger
          · have hgrown := hcurrent.grow
            rw [if_pos hempty] at hgrown
            exact hgrown.span (by simp)
          · exact hlongest.append [0]
          · have hgrown := hcurrent.grow
            rw [if_neg hempty] at hgrown
            exact hgrown.span (by simp)
          · exact hlongest.append [0]
        · simp only [scanZeros, if_neg hzero]
          exact hlongest.append [segment]
      · by_cases hzero : segment = 0
        · subst hzero
          simp only [scanZeros, if_true]
          exact hcurrent.grow
        · simp only [scanZeros, if_neg hzero]
          exact ⟨front ++ [segment], by simp, by simp⟩

theorem longestZeros_span (segments : List ℕ) :
    ZeroSpan segments (longestZeros segments) := by
  rw [longestZeros_eq]
  exact foldl_scanZeros segments [] ((0, 0), (0, 0))
    ⟨[], [], by simp, rfl⟩ ⟨[], by simp, by simp⟩

/-! ## IPv6 addresses -/

theorem ipv6Segments_bound (addr : BitVec 128) :
    ∀ group ∈ ipv6Segments addr, group < 65536 := by
  intro group hgroup
  obtain ⟨index, -, rfl⟩ := List.mem_map.mp hgroup
  exact Nat.mod_lt _ (by decide)

/-- The groups from the front make up the high bits of the number. -/
theorem foldl_groups (value count : ℕ) :
    ((List.range count).map fun index =>
        value / 2 ^ (16 * (count - 1 - index)) % 65536).foldl
      (fun value group => value * 65536 + group) 0 =
        value % 2 ^ (16 * count) := by
  induction count generalizing value with
  | zero => simp [Nat.mod_one]
  | succ count ih =>
      have hfront : (List.range count).map (fun index =>
          value / 2 ^ (16 * (count - index)) % 65536) =
            (List.range count).map (fun index =>
              value / 65536 / 2 ^ (16 * (count - 1 - index)) % 65536) := by
        apply List.map_congr_left
        intro index hindex
        have hbefore := List.mem_range.mp hindex
        have hexponent : 16 * (count - index) =
            16 + 16 * (count - 1 - index) := by
          omega
        rw [hexponent, Nat.pow_add, ← Nat.div_div_eq_div_mul]
      have hpower : 2 ^ (16 * (count + 1)) = 65536 * 2 ^ (16 * count) := by
        rw [Nat.mul_add, Nat.pow_add, Nat.mul_comm]
      rw [List.range_succ, List.map_append, List.foldl_append,
        Nat.add_sub_cancel, hfront, ih, hpower, Nat.mod_mul]
      simp only [List.map_cons, List.map_nil, List.foldl_cons,
        List.foldl_nil, Nat.sub_self, Nat.mul_zero, Nat.pow_zero,
        Nat.div_one]
      omega

theorem groupsToAddr_ipv6Segments (addr : BitVec 128) :
    groupsToAddr (ipv6Segments addr) = addr := by
  have hvalue := foldl_groups addr.toNat 8
  have hsmall : addr.toNat % 2 ^ (16 * 8) = addr.toNat :=
    Nat.mod_eq_of_lt addr.isLt
  rw [hsmall] at hvalue
  rw [groupsToAddr, ipv6Segments, hvalue, BitVec.ofNat_toNat,
    BitVec.setWidth_eq]

/-- Eight groups that are all written. -/
theorem parseIpv6Addr_joined
    {segments : List ℕ} (hlength : segments.length = 8)
    (hsegments : ∀ group ∈ segments, group < 65536) :
    parseIpv6Addr (joinSegments segments) = some (groupsToAddr segments) := by
  have hread : readGroups 8 true (writeGroups true segments ++ []) =
      (segments, false, []) :=
    readGroups_writeGroups hsegments (by simp) ends_nil hlength.le
      (.inl hlength)
  rw [List.append_nil] at hread
  simp only [parseIpv6Addr, toList_joinSegments, hread, hlength, if_true,
    List.isEmpty_nil]

/-- Groups on both sides of two colons. -/
theorem parseIpv6Addr_compressed
    {front back : List ℕ} {zeros : ℕ} (hzeros : 1 < zeros)
    (hlength : front.length + zeros + back.length = 8)
    (hfront : ∀ group ∈ front, group < 65536)
    (hback : ∀ group ∈ back, group < 65536) :
    parseIpv6Addr (joinSegments front ++ "::" ++ joinSegments back) =
      some (groupsToAddr (front ++ (List.replicate zeros 0 ++ back))) := by
  have htext : (joinSegments front ++ "::" ++ joinSegments back).toList =
      writeGroups true front ++ ':' :: ':' :: writeGroups true back := by
    simp [String.toList_append, toList_joinSegments]
  have hcolon : ∀ others, Ends 16 (':' :: others) :=
    ends_cons (by decide)
  have hend : ∀ first : Bool,
      GroupsEnd first (':' :: ':' :: writeGroups true back) := by
    intro first
    cases first with
    | true =>
        exact readNumber_of_ends 4 65535 true
          (hcolon (':' :: writeGroups true back))
    | false =>
        have hsecond := readNumber_of_ends 4 65535 true
          (hcolon (writeGroups true back))
        simp only [GroupsEnd, readSeparated, Bool.false_eq_true, if_false,
          if_true, hsecond]
  have hdot : '.' ∉ ':' :: ':' :: writeGroups true back := by
    have hgroups : '.' ∉ writeGroups true back :=
      notMem_writeGroups (by decide) (by decide) true back
    simp [hgroups]
  have hhead : readGroups 8 true
      (writeGroups true front ++ ':' :: ':' :: writeGroups true back) =
        (front, false, ':' :: ':' :: writeGroups true back) :=
    readGroups_writeGroups hfront hdot (hcolon _) (by omega)
      (.inr (hend _))
  have htail : readGroups (7 - front.length) true
      (writeGroups true back ++ []) = (back, false, []) := by
    apply readGroups_writeGroups hback (by simp) ends_nil (by omega)
    right
    cases back <;> rfl
  rw [List.append_nil] at htail
  have hgap : 8 - front.length - back.length = zeros := by
    omega
  have hshort : front.length ≠ 8 := by
    omega
  simp only [parseIpv6Addr, htext, hhead, if_neg hshort,
    Bool.false_eq_true, if_false, htail, List.isEmpty_nil, if_true, hgap,
    List.append_assoc]

/-- An address does not begin with anything but a digit. -/
theorem readIpv4Addr_of_ends {chars : List Char} (hends : Ends 10 chars) :
    readIpv4Addr chars = none := by
  simp only [readIpv4Addr, readNumber_of_ends 3 255 false hends,
    Option.bind_eq_bind, Option.bind_none]

/-- Two colons and a group of ones in front of an IPv4 address. -/
theorem parseIpv6Addr_mapped (ip : Ipv4Addr) :
    parseIpv6Addr ("::ffff:" ++ ipv4Text ip) =
      some (BitVec.ofNat 128 (65535 * 2 ^ 32 + ip.toNat)) := by
  have hones : hexNat 65535 = "ffff" := by
    decide
  have htext : ("::ffff:" ++ ipv4Text ip).toList = ':' :: ':' ::
      ((hexNat 65535).toList ++ ':' :: (ipv4Text ip).toList) := by
    simp [hones, String.toList_append]
  have hhead : readGroups 8 true (':' :: ':' ::
      ((hexNat 65535).toList ++ ':' :: (ipv4Text ip).toList)) =
        ([], false, ':' :: ':' ::
          ((hexNat 65535).toList ++ ':' :: (ipv4Text ip).toList)) := by
    have hdecimal := readIpv4Addr_of_ends (ends_cons
      (show digitValue 10 ':' = none by decide)
      (':' :: ((hexNat 65535).toList ++ ':' :: (ipv4Text ip).toList)))
    have hgroup := readNumber_of_ends 4 65535 true (ends_cons
      (show digitValue 16 ':' = none by decide)
      (':' :: ((hexNat 65535).toList ++ ':' :: (ipv4Text ip).toList)))
    simp only [readGroups, readSeparated, if_true, hdecimal, hgroup,
      ite_self]
  have htail : readGroups 7 true
      ((hexNat 65535).toList ++ ':' :: (ipv4Text ip).toList) =
        ([65535, (octets ip).1.toNat * 256 + (octets ip).2.1.toNat,
          (octets ip).2.2.1.toNat * 256 + (octets ip).2.2.2.toNat],
            true, []) := by
    have hdecimal : readIpv4Addr
        ((hexNat 65535).toList ++ ':' :: (ipv4Text ip).toList) = none := by
      rw [hones]
      exact readIpv4Addr_of_ends (ends_cons (by decide) _)
    have hgroup := readNumber_group (show 65535 < 65536 by decide)
      (ends_cons (show digitValue 16 ':' = none by decide)
        (ipv4Text ip).toList)
    simp only [readGroups, readSeparated, if_true, hdecimal, hgroup,
      ite_self, Bool.false_eq_true, if_false, readIpv4Addr_ipv4Text,
      Nat.reduceEqDiff]
  have hvalue := octets_value ip
  simp only [parseIpv6Addr, htext, hhead, htail, List.length_nil,
    List.length_cons, Nat.reduceEqDiff, if_false, Bool.false_eq_true,
    Nat.reduceSub, Nat.reduceAdd, List.isEmpty_nil, if_true]
  have hzeros : List.replicate 5 0 = [0, 0, 0, 0, 0] := rfl
  have hsplit : ∀ high low : ℕ, (65535 * 65536 + high) * 65536 + low =
      65535 * 2 ^ 32 + (high * 65536 + low) := by
    omega
  rw [hzeros, groupsToAddr]
  simp only [List.nil_append, List.cons_append, List.foldl_cons,
    List.foldl_nil, Nat.zero_mul, Nat.zero_add, hsplit, hvalue]

/-- What an address is displayed as is read as the address. -/
theorem parseIpv6Addr_ipv6Text (addr : BitVec 128) :
    parseIpv6Addr (ipv6Text addr) = some addr := by
  have hlength : (ipv6Segments addr).length = 8 := by
    simp [ipv6Segments]
  have hbound := ipv6Segments_bound addr
  have hvalue := groupsToAddr_ipv6Segments addr
  unfold ipv6Text
  dsimp only
  split_ifs with hmapped hzeros
  · have hlow : 65535 * 2 ^ 32 + (UInt32.ofNat addr.toNat).toNat =
        addr.toNat := by
      rw [UInt32.toNat_ofNat']
      omega
    have hread := parseIpv6Addr_mapped (UInt32.ofNat addr.toNat)
    rw [hlow, BitVec.ofNat_toNat, BitVec.setWidth_eq] at hread
    exact hread
  · have hspan := longestZeros_span (ipv6Segments addr)
    generalize longestZeros (ipv6Segments addr) = span at hspan hzeros ⊢
    obtain ⟨front, back, hsplit, hstart⟩ := hspan
    rw [hsplit] at hlength hbound hvalue ⊢
    have htake : (front ++ (List.replicate span.2 0 ++ back)).take span.1 =
        front := by
      rw [← hstart]
      exact List.take_left
    have hdrop : (front ++ (List.replicate span.2 0 ++ back)).drop
        (span.1 + span.2) = back := by
      rw [← hstart, ← List.append_assoc]
      apply List.drop_left'
      simp
    have hsum : front.length + span.2 + back.length = 8 := by
      simp only [List.length_append, List.length_replicate] at hlength
      omega
    have hfront : ∀ group ∈ front, group < 65536 := fun group hgroup =>
      hbound group (List.mem_append_left _ hgroup)
    have hback : ∀ group ∈ back, group < 65536 := fun group hgroup =>
      hbound group (List.mem_append_right _
        (List.mem_append_right _ hgroup))
    have hread := parseIpv6Addr_compressed hzeros hsum hfront hback
    rw [hvalue] at hread
    rw [htake, hdrop]
    exact hread
  · rw [parseIpv6Addr_joined hlength hbound, hvalue]

/-! ## Networks -/

theorem notMem_ipv4Text
    {char : Char} (hchar : digitValue 10 char = none) (hdot : char ≠ '.')
    (ip : Ipv4Addr) : char ∉ (ipv4Text ip).toList := by
  have hoctet : ∀ octet : UInt8, char ∉ (toString octet.toNat).toList :=
    fun octet => (spells_octet ⟨octet.toNat, octet.toNat_lt⟩).notMem hchar
  rw [toList_ipv4Text]
  simp only [List.mem_append, List.mem_cons, hoctet, hdot, List.not_mem_nil,
    or_false, not_false_eq_true]

/-- The texts of addresses have digits, colons and dots only. -/
theorem notMem_ipv6Text
    {char : Char} (hchar : digitValue 16 char = none)
    (hdecimal : digitValue 10 char = none) (hcolon : char ≠ ':')
    (hdot : char ≠ '.') (addr : BitVec 128) :
    char ∉ (ipv6Text addr).toList := by
  have hgroups : ∀ segments, char ∉ (joinSegments segments).toList := by
    intro segments
    rw [toList_joinSegments]
    exact notMem_writeGroups hchar hcolon true segments
  have hipv4 := notMem_ipv4Text hdecimal hdot (UInt32.ofNat addr.toNat)
  have hletter : char ≠ 'f' := by
    rintro rfl
    cases hchar
  unfold ipv6Text
  dsimp only
  split_ifs with hmapped hzeros
  · simp [String.toList_append, toString, hipv4, hcolon, hletter]
  · simp [String.toList_append, toString, hgroups, hcolon]
  · exact hgroups _

/-- An address, a slash and a prefix length. -/
def readIpv6Net (text : String) : Option Ipv6Net := do
  let addr ← parseIpv6Addr
    (String.ofList (text.toList.takeWhile fun char => char != '/'))
  let digits := (text.toList.dropWhile fun char => char != '/').drop 1
  let (prefixLen, rest) ← readNumber 10 3 128 false digits
  if hlen : prefixLen < 129 then
    if rest.isEmpty then some ⟨addr, ⟨prefixLen, hlen⟩⟩ else none
  else none

theorem toList_ipv6NetText (net : Ipv6Net) :
    (ipv6NetText net).toList = (ipv6Text net.addr).toList ++
      '/' :: (toString net.prefixLen.val).toList := by
  simp [ipv6NetText, String.toList_append, toString]

theorem readIpv6Net_text (net : Ipv6Net) :
    readIpv6Net (ipv6NetText net) = some net := by
  have hlen : net.prefixLen.val < 129 := net.prefixLen.isLt
  have hplain : ∀ char ∈ (ipv6Text net.addr).toList,
      (char != '/') = true := by
    intro char hchar
    rw [bne_iff_ne]
    rintro rfl
    exact notMem_ipv6Text (by decide) (by decide) (by decide) (by decide)
      net.addr hchar
  have htake : ((ipv6Text net.addr).toList ++
      '/' :: (toString net.prefixLen.val).toList).takeWhile
        (fun char => char != '/') = (ipv6Text net.addr).toList := by
    rw [List.takeWhile_append_of_pos hplain]
    simp
  have hdrop : ((ipv6Text net.addr).toList ++
      '/' :: (toString net.prefixLen.val).toList).dropWhile
        (fun char => char != '/') =
          '/' :: (toString net.prefixLen.val).toList := by
    rw [List.dropWhile_append_of_pos hplain]
    simp
  have hread : readNumber 10 3 128 false
      ((toString net.prefixLen.val).toList ++ []) =
        some (net.prefixLen.val, []) :=
    readNumber_octet (by omega) (by omega) ends_nil
  rw [List.append_nil] at hread
  simp only [readIpv6Net, toList_ipv6NetText, htake, hdrop,
    String.ofList_toList, parseIpv6Addr_ipv6Text, List.drop_succ_cons, List.drop_zero, hread,
    Option.bind_eq_bind, Option.bind_some, hlen, dif_pos,
    List.isEmpty_nil, if_true]

theorem digitValue_eq_none_of_whiteSpace
    {radix : ℕ} {char : Char} (hwhite : isWhiteSpace char = true) :
    digitValue radix char = none := by
  have hrange : char.toNat < 48 ∨ 122 < char.toNat := by
    by_contra hvisible
    rw [isWhiteSpace_of_visible (by omega) (by omega)] at hwhite
    cases hwhite
  have hdigit : ¬ ('0' ≤ char ∧ char ≤ '9') := by
    rintro ⟨hlow, hhigh⟩
    have hlow : 48 ≤ char.toNat := hlow
    have hhigh : char.toNat ≤ 57 := hhigh
    omega
  have hlower : ¬ ('a' ≤ char ∧ char ≤ 'z') := by
    rintro ⟨hlow, hhigh⟩
    have hlow : 97 ≤ char.toNat := hlow
    have hhigh : char.toNat ≤ 122 := hhigh
    omega
  have hupper : ¬ ('A' ≤ char ∧ char ≤ 'Z') := by
    rintro ⟨hlow, hhigh⟩
    have hlow : 65 ≤ char.toNat := hlow
    have hhigh : char.toNat ≤ 90 := hhigh
    omega
  simp [digitValue, hdigit, hlower, hupper]

/-- The text of a network is one word. -/
theorem words_ipv6NetText (net : Ipv6Net) :
    words isWhiteSpace (ipv6NetText net).toList =
      [(ipv6NetText net).toList] := by
  apply words_of_no_separator
  · rw [toList_ipv6NetText]
    simp
  · intro char hchar
    by_contra hwhite
    rw [Bool.not_eq_false] at hwhite
    have hplain : ∀ other : Char, isWhiteSpace other = false →
        char ≠ other := by
      rintro other hother rfl
      rw [hwhite] at hother
      cases hother
    have hlen : net.prefixLen.val < 256 := by
      have hbound := net.prefixLen.isLt
      omega
    rw [toList_ipv6NetText, List.mem_append, List.mem_cons] at hchar
    rcases hchar with haddr | hslash | hlength
    · exact notMem_ipv6Text (digitValue_eq_none_of_whiteSpace hwhite)
        (digitValue_eq_none_of_whiteSpace hwhite)
        (hplain ':' (by decide)) (hplain '.' (by decide)) net.addr haddr
    · exact hplain '/' (by decide) hslash
    · exact (spells_octet ⟨net.prefixLen.val, hlen⟩).notMem
        (digitValue_eq_none_of_whiteSpace hwhite) hlength

end AlephCvm.Net

namespace AlephCvm.Grpc

open AlephCvm.Net

theorem ipv6Text_nonempty (addr : BitVec 128) :
    (ipv6Text addr).isEmpty = false := by
  cases hempty : (ipv6Text addr).isEmpty with
  | false => rfl
  | true =>
      have hread := parseIpv6Addr_ipv6Text addr
      rw [String.isEmpty_iff.mp hempty] at hread
      cases hread

/-- A request that asks for an address as it is displayed gets the network of
this address and the lowest eight bits of the prefix length. -/
theorem requestedIpv6_displayed_iff
    (req : CreateVmRequest) (net : Ipv6Net) (prefixLen : UInt32) :
    requestedIpv6 { req with
        ipv6Address := ipv6Text net.addr
        ipv6PrefixLen := prefixLen } = .ok (some net) ↔
      (if prefixLen = 0 then 128 else prefixLen.toNat % 256) =
        net.prefixLen.val := by
  have hshort : (if prefixLen = 0 then (128 : UInt8)
      else prefixLen.toUInt8).toNat =
        if prefixLen = 0 then 128 else prefixLen.toNat % 256 := by
    split_ifs with hzero
    · rfl
    · exact UInt32.toNat_toUInt8 prefixLen
  simp only [requestedIpv6, ipv6Text_nonempty, Bool.false_eq_true, if_false,
    parseIpv6Addr_ipv6Text]
  rw [← hshort]
  by_cases hlen : (if prefixLen = 0 then (128 : UInt8)
      else prefixLen.toUInt8).toNat < 129
  · rw [dif_pos hlen, Except.ok.injEq, Option.some.injEq]
    constructor
    · intro hnet
      exact congrArg (fun net => net.prefixLen.val) hnet
    · intro hsame
      simp only [hsame]
  · rw [dif_neg hlen]
    constructor
    · intro hok
      cases hok
    · intro hsame
      have hbound := net.prefixLen.isLt
      omega

end AlephCvm.Grpc

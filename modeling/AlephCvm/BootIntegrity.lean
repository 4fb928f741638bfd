import AlephCvm.BootLayout
import AlephCvm.GrpcService

/-!
# Booting with integrity verification

The root hash travels from a cache file, or from the output of `veritysetup`,
over the kernel command line to the init script, which mounts the first disk
without verification when it finds no hexadecimal digit where it looks for
one.  The texts with which this happens are described without the programs
that handle them.
-/

namespace AlephCvm.Qemu

open ResultContext GreedyMatch AlephCvm.Tee AlephCvm.GuestInit

/-- The text that stands for the root hash in what `ensure_verity` finds. -/
def VerityFiles.HashText (files : VerityFiles) (text : String) : Prop :=
  if cacheIsFresh files then
    ∃ content, files.cachedRoothash = .ok content ∧ trimText content = text
  else
    ∃ output, files.veritysetup = .ok output ∧
      parseRootHash output.stdout = some text

theorem VerityFiles.HashText.unique
    {files : VerityFiles} {first second : String}
    (hfirst : files.HashText first) (hsecond : files.HashText second) :
    first = second := by
  unfold HashText at hfirst hsecond
  split at hfirst
  · rename_i hfresh
    rw [if_pos hfresh] at hsecond
    obtain ⟨content, hcontent, htext⟩ := hfirst
    obtain ⟨other, hother, hotherText⟩ := hsecond
    rw [hcontent] at hother
    cases hother
    rw [← htext, hotherText]
  · rename_i hstale
    rw [if_neg hstale] at hsecond
    obtain ⟨output, houtput, htext⟩ := hfirst
    obtain ⟨other, hother, hotherText⟩ := hsecond
    rw [houtput] at hother
    cases hother
    rw [htext] at hotherText
    exact Option.some.inj hotherText

/-! ## The text behind the fixed part of the command line -/

/-- The end of the command line, from `roothash=` on. -/
def hashParameters (hash : String) (workloadHash : Option String) :
    List Char :=
  roothashPattern.key ++ (hash.toList ++ workloadSuffix workloadHash)

/-- On some line, the last `roothash=` that starts a word has a hexadecimal
digit behind it. -/
def ReadsRootHash (text : List Char) : Prop :=
  ∃ line ∈ text.splitOn '\n', ∃ before digit after,
    roothashPattern.LastAt none line before (digit :: after) ∧
      isHexDigit digit = true

/-- On the first line with `luks=`, exactly `1` stands behind the last one, up
to a space, and behind those on later lines there is nothing. -/
def ReadsLuks (text : List Char) : Prop :=
  ∃ earlier line later before after,
    text.splitOn '\n' = earlier ++ line :: later ∧
    (∀ other ∈ earlier, ∀ front behind,
      ¬ luksPattern.OccursAt none other front behind) ∧
    luksPattern.LastAt none line before after ∧
    after.takeWhile (· != ' ') = ['1'] ∧
    ∀ other ∈ later, ∀ front behind,
      luksPattern.LastAt none other front behind →
        behind.takeWhile (· != ' ') = []

/-- The script finds a root hash and is not told to use LUKS. -/
structure ReadsVerity (text : List Char) : Prop where
  rootHash : ReadsRootHash text
  noLuks : ¬ ReadsLuks text

theorem verityCmdline_print
    {pattern : Pattern Char}
    (hmisses : pattern.missesIn verityFront = true)
    (hallowed : pattern.allowedAfter (some ' ') =
      pattern.allowedAfter none)
    (hash : String) (workloadHash : Option String) :
    pattern.print
        (buildKernelCmdline (some hash) workloadHash false).toList =
      pattern.print (hashParameters hash workloadHash) := by
  have hfront : '\n' ∉ verityFront := by
    decide
  have hlast : lastSymbol none verityFront = some ' ' :=
    lastSymbol_of_getLast? (by decide) none
  rw [verityCmdline_toList]
  exact Pattern.print_append_of_misses hmisses hfront
    (by rw [hlast]; exact hallowed) _

theorem ofList_eq_iff (symbols : List Char) (text : String) :
    String.ofList symbols = text ↔ symbols = text.toList := by
  constructor
  · intro hequal
    rw [← hequal, String.toList_ofList]
  · intro hequal
    rw [hequal, String.ofList_toList]

theorem roothash_ne_empty_iff
    (hash : String) (workloadHash : Option String) :
    roothash (buildKernelCmdline (some hash) workloadHash false) ≠ "" ↔
      ReadsRootHash (hashParameters hash workloadHash) := by
  have hkey : roothashPattern.key ≠ [] := by
    rw [roothash_key]
    exact List.cons_ne_nil _ _
  have hmisses : roothashPattern.missesIn verityFront = true := by
    decide
  have hprint := verityCmdline_print hmisses
    (by decide) hash workloadHash
  unfold roothash sed
  rw [Ne, ofList_eq_iff, hprint, String.toList_empty]
  exact roothashPattern.substitution_print_ne_nil_iff hkey _

theorem luks_eq_one_iff (hash : String) (workloadHash : Option String) :
    luks (buildKernelCmdline (some hash) workloadHash false) = "1" ↔
      ReadsLuks (hashParameters hash workloadHash) := by
  have hkey : luksPattern.key ≠ [] := by
    rw [luks_key]
    exact List.cons_ne_nil _ _
  have hone : "1".toList = ['1'] := by
    decide
  have hmisses : luksPattern.missesIn verityFront = true := by
    decide
  have hprint := verityCmdline_print hmisses
    rfl hash workloadHash
  unfold luks sed
  rw [ofList_eq_iff, hprint, hone]
  exact luksPattern.substitution_print_eq_iff hkey _ (by simp) (by simp)

/-- The script opens the first disk with dm-verity exactly when the text
contains the parameters that it looks for. -/
theorem bootMode_verity_iff (hash : String) (workloadHash : Option String) :
    (∃ rootHash,
        bootMode (buildKernelCmdline (some hash) workloadHash false) =
          .verity rootHash) ↔
      ReadsVerity (hashParameters hash workloadHash) := by
  have hroothash := roothash_ne_empty_iff hash workloadHash
  have hluks := luks_eq_one_iff hash workloadHash
  generalize buildKernelCmdline (some hash) workloadHash false = cmdline
    at *
  constructor
  · intro ⟨rootHash, hmode⟩
    unfold bootMode at hmode
    split at hmode
    · cases hmode
    · rename_i hother
      split at hmode
      · cases hmode
      · rename_i hfound
        exact ⟨hroothash.1 hfound, fun hread => hother (hluks.2 hread)⟩
  · intro hreads
    have hother : luks cmdline ≠ "1" := fun hone =>
      hreads.noLuks (hluks.1 hone)
    have hfound := hroothash.2 hreads.rootHash
    exact ⟨roothash cmdline, by
      rw [bootMode, if_neg hother, if_neg hfound]⟩

/-- Hexadecimal hashes are read. -/
theorem readsVerity_of_hexHash
    {hash : String} {workloadHash : Option String} (hhash : HexHash hash)
    (hworkload : ∀ other, workloadHash = some other → HexHash other) :
    ReadsVerity (hashParameters hash workloadHash) :=
  (bootMode_verity_iff hash workloadHash).1
    ⟨hash, (bootMode_verityCmdline hhash hworkload).1⟩

/-- For a single disk and a text without `=`, what counts is whether the text
starts with a hexadecimal digit. -/
theorem readsVerity_iff_of_no_equals
    {hash : String} (hequals : '=' ∉ hash.toList) :
    ReadsVerity (hashParameters hash none) ↔
      ∃ digit rest, hash.toList = digit :: rest ∧
        isHexDigit digit = true := by
  have htext : hashParameters hash none =
      roothashPattern.key ++ hash.toList :=
    congrArg _ (List.append_nil _)
  have hnoLuks : ¬ ReadsLuks (hashParameters hash none) := by
    have hkey : luksPattern.key ≠ [] := by
      rw [luks_key]
      exact List.cons_ne_nil _ _
    have hmisses : luksPattern.missesIn roothashPattern.key = true := by
      decide
    have hequalsKey : '=' ∈ luksPattern.key := by
      decide
    intro hreads
    have hvalue := (luksPattern.substitution_print_eq_iff hkey _
      (by simp) (by simp)).2 hreads
    rw [htext, Pattern.print_append_of_misses hmisses (by decide)
      rfl, Pattern.print_eq_nil_of_missing hequalsKey hequals] at hvalue
    cases hvalue
  have hequalsKey : '=' ∈ roothashPattern.key := by
    decide
  obtain ⟨line, lines, hlines, hprint⟩ :=
    Pattern.print_key roothash_key (by decide) (by decide)
      (by decide) hequalsKey hequals
  have hroothash : ReadsRootHash (hashParameters hash none) ↔
      line.takeWhile isHexDigit ≠ [] := by
    have hkey := List.ne_nil_of_mem hequalsKey
    have hread := roothashPattern.substitution_print_ne_nil_iff hkey
      (hashParameters hash none)
    rw [htext, Ne, substitution_eq_nil_iff (fun found hfound =>
      Pattern.not_mem_of_mem_print hkey hfound), hprint] at hread
    rw [htext]
    exact hread.symm.trans (by simp [roothashPattern])
  have hstart : line.takeWhile isHexDigit ≠ [] ↔
      ∃ digit rest, hash.toList = digit :: rest ∧
        isHexDigit digit = true := by
    cases hhash : hash.toList with
    | nil =>
        rw [hhash, List.splitOn_nil] at hlines
        cases hlines
        simp
    | cons digit rest =>
        rw [hhash, List.splitOn_cons_eq_if_modifyHead] at hlines
        split at hlines
        · rename_i hbreak
          cases hlines
          have hdigit : digit = '\n' := by simpa using hbreak
          simp [hdigit, isHexDigit]
        · cases hrest : rest.splitOn '\n' with
          | nil => exact absurd hrest (List.splitOn_ne_nil _ _)
          | cons head others =>
              rw [hrest, List.modifyHead_cons] at hlines
              cases hlines
              cases hdigit : isHexDigit digit <;> simp [hdigit]
  rw [← hstart, ← hroothash]
  constructor
  · intro hreads
    exact hreads.rootHash
  · intro hread
    exact ⟨hread, hnoLuks⟩

/-- Parameters that stand for the disks of a machine: the first disk is
`rootfs`, and `rest` are the others. -/
def VerityCalls.ReadsVerity (calls : VerityCalls)
    (rest : List DiskConfig) : Prop :=
  ∃ hash, calls.rootfs.HashText hash ∧
    match rest with
    | [] => Qemu.ReadsVerity (hashParameters hash none)
    | _ :: _ =>
        ∃ other, calls.workload.HashText other ∧
          Qemu.ReadsVerity (hashParameters hash (some other))

end AlephCvm.Qemu

namespace AlephCvm.Grpc

open ResultContext AlephCvm.Tee AlephCvm.Qemu

theorem bootFile_isSome
    {pathExists : String → Bool} {tee : TeeConfig}
    {path fieldName : String} {file : Option String}
    (hconfidential : tee.backend ≠ .none)
    (hfile : bootFile pathExists tee path fieldName = .ok file) :
    file.isSome = true := by
  unfold bootFile at hfile
  split at hfile
  · cases hfile
  · simp only [bind_eq_ok, pure_eq_ok] at hfile
    obtain ⟨-, -, hequal⟩ := hfile
    rw [← hequal]
    rfl

/-- A request for a confidential machine always boots a kernel directly. -/
theorem translateRequest_directBoot
    {pathExists : String → Bool} {req : CreateVmRequest}
    {arguments : CreateArguments}
    (hok : translateRequest pathExists req = .ok arguments)
    (hconfidential : isConfidential arguments.config = true) :
    arguments.config.kernel.isSome = true ∧
      arguments.config.initrd.isSome = true := by
  simp only [translateRequest, bind_eq_ok, pure_eq_ok] at hok
  obtain ⟨-, -, tee, -, kernel, hkernel, initrd, hinitrd, -, -, -, -, -, -,
    -, -, ipv6, -, hequal⟩ := hok
  subst hequal
  have hbackend : tee.backend ≠ .none := by
    simpa [isConfidential] using hconfidential
  exact ⟨bootFile_isSome hbackend hkernel, bootFile_isSome hbackend hinitrd⟩

end AlephCvm.Grpc

namespace AlephCvm.Vm

open AlephCvm.Tee AlephCvm.Qemu AlephCvm.GuestInit

variable {cfg : NodeConfig}

end AlephCvm.Vm

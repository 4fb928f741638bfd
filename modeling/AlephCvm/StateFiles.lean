import AlephCvm.RecoveryReplay
import AlephCvm.StateMirror
import AlephCvm.StateRecords
import AlephCvm.Utf8Text

/-!
# The state directory as a directory of texts

Model of `save_vm`, `load_all_vms` and `delete_vm` in
`aleph-compute-node/src/persistence.rs` on the files themselves.  A record is
written to a temporary file that is then renamed, and the process may fail or
die between any two steps, with any part of the text written.

The manager's own model keeps the directory as a table of records.  The
directory of texts refines this table: whatever was interrupted, and whatever
other files are around, what is loaded are the records that the table has.
-/

namespace AlephCvm.Vm

open TableFolds StepRuns JsonRecords AlephCvm.Tee Utf8Text

abbrev Directory := AList fun _ : String => Bytes

/-! ## Saving and deleting -/

/-- How far a save gets. -/
inductive SaveOutcome where
  | noDirectory (message : String)
  | notCreated (message : String)
  | interrupted (written : ℕ) (message : String)
  | notSynced (message : String)
  | notRenamed (message : String)
  | saved

def SaveOutcome.done : SaveOutcome → Bool
  | .saved => true
  | _ => false

def tempFile (vmId : String) : String := s!"{vmId}.json.tmp"

/-- The text of a record as it is written to its file. -/
def recordBytes (texts : Ipv6NetTexts) (stored : StoredVm) : Bytes :=
  ((storedFormat texts).toText .pretty stored).toUTF8.toList

section Save

variable (texts : Ipv6NetTexts) (stateDir : String)

def saveFile (dir : Directory) (vmId : String) (stored : StoredVm)
    (outcome : SaveOutcome) : Except String Unit × Directory :=
  let path := s!"{stateDir}/{stateFile vmId}"
  let tmp := s!"{stateDir}/{tempFile vmId}"
  let bytes := recordBytes texts stored
  match outcome with
  | .noDirectory _ =>
      (.error s!"failed to create state dir: {stateDir}", dir)
  | .notCreated _ => (.error s!"failed to create {tmp}", dir)
  | .interrupted written _ =>
      (.error s!"failed to write {tmp}",
        dir.insert (tempFile vmId) (bytes.take written))
  | .notSynced _ =>
      (.error s!"failed to fsync {tmp}", dir.insert (tempFile vmId) bytes)
  | .notRenamed _ =>
      (.error s!"failed to rename {tmp} -> {path}",
        dir.insert (tempFile vmId) bytes)
  | .saved =>
      (.ok (), ((dir.insert (tempFile vmId) bytes).erase
        (tempFile vmId)).insert (stateFile vmId) bytes)

/-- A file that is not there counts as deleted. -/
def deleteFile (dir : Directory) (vmId : String)
    (removal : Except String Unit) : Except String Unit × Directory :=
  match removal with
  | .ok () => (.ok (), dir.erase (stateFile vmId))
  | .error _ =>
      if stateFile vmId ∈ dir then
        (.error s!"failed to delete {stateDir}/{stateFile vmId}", dir)
      else (.ok (), dir)

end Save

/-! ## Loading -/

/-- `read_to_string` and `from_str`. -/
def readRecord (texts : Ipv6NetTexts) (bytes : Bytes) : Option StoredVm := do
  let text ← textOf bytes
  (storedFormat texts).ofText text

def loadFiles (texts : Ipv6NetTexts) (calls : RestartCalls)
    (dir : Directory) : Except String (List PersistedVm) :=
  match calls.readDir with
  | .error _ => .error "failed to read state dir"
  | .ok () => .ok ((calls.order.arrange (dir.entries.filter fun entry =>
      hasJsonExtension entry.1 && calls.readable entry.1)).filterMap
        fun entry => (readRecord texts entry.2).map StoredVm.vm)

theorem readRecord_recordBytes
    (texts : Ipv6NetTexts) (stored : StoredVm) :
    readRecord texts (recordBytes texts stored) = some stored := by
  rw [readRecord, recordBytes, textOf_toUTF8, Option.bind_eq_bind,
    Option.bind_some, RecordFormat.ofText_toText]

/-- What is read of a file from which some fields are missing, in the record
or in its configuration: nothing when one of them has no default, and
otherwise the record with the defaults. -/
theorem readRecord_incomplete
    (texts : Ipv6NetTexts) (layout : Layout)
    (names configNames : List String) (stored : StoredVm) :
    (readRecord texts (writeJson layout (.object (without names
        (persistedFields
          (.object (without configNames (configFields stored.vm.config)))
          stored.vm)))).toUTF8.toList).map StoredVm.vm =
      if (∃ name ∈ neededOfRecord, name ∈ names) ∨
          ∃ name ∈ neededOfConfig, name ∈ configNames then none
      else some (persistedWithout names configNames stored.vm) := by
  have hwithin := within_incomplete names configNames stored.vm
  rw [← readPersisted_without texts names configNames stored, readRecord,
    textOf_toUTF8, Option.bind_eq_bind, Option.bind_some,
    RecordFormat.ofText, readJson_writeJson layout hwithin,
    Option.bind_eq_bind, Option.bind_some]
  rfl

/-! ## The table of records -/

/-- What can be read from a file. -/
def recordAt (texts : Ipv6NetTexts) (dir : Directory) (name : String) :
    Option PersistedVm :=
  (dir.lookup name).bind fun bytes =>
    (readRecord texts bytes).map StoredVm.vm

/-- Every file that a recovery looks at can be read as the record that the
table has under its name, or cannot be read and the table has none. -/
def Represents (texts : Ipv6NetTexts) (dir : Directory)
    (table : AList fun _ : String => PersistedVm) : Prop :=
  ∀ name, hasJsonExtension name = true →
    recordAt texts dir name = table.lookup name

inductive StateOp where
  | save (vmId : String) (stored : StoredVm) (outcome : SaveOutcome)
  | delete (vmId : String) (removal : Except String Unit)

def stepFiles (texts : Ipv6NetTexts) (stateDir : String) (dir : Directory) :
    StateOp → Directory
  | .save vmId stored outcome =>
      (saveFile texts stateDir dir vmId stored outcome).2
  | .delete vmId removal => (deleteFile stateDir dir vmId removal).2

/-- What the manager's model does to its table. -/
def stepTable (table : AList fun _ : String => PersistedVm) :
    StateOp → AList fun _ : String => PersistedVm
  | .save vmId stored outcome =>
      if outcome.done then table.insert (stateFile vmId) stored.vm
      else table
  | .delete vmId removal =>
      if removal.isOk then table.erase (stateFile vmId) else table

theorem stepTable_save
    {cfg : NodeConfig} (node : Node cfg) (vmId : String)
    (stored : StoredVm) (outcome : SaveOutcome) :
    stepTable node.stateDir (.save vmId stored outcome) =
      (node.saveVm outcome.done vmId stored.vm).stateDir := by
  unfold stepTable Node.saveVm
  cases outcome <;> rfl

theorem tempFile_hidden (vmId : String) :
    hasJsonExtension (tempFile vmId) = false := by
  have htext : (tempFile vmId).toList =
      (vmId ++ ".jso").toList ++ "n.tmp".toList := by
    simp [tempFile, toString, String.toList_append]
  unfold hasJsonExtension
  rw [Bool.and_eq_false_iff]
  left
  rw [Bool.eq_false_iff]
  intro hsuffix
  rw [List.isSuffixOf_iff_suffix, htext] at hsuffix
  obtain ⟨front, hfront⟩ := hsuffix
  have hsame := List.append_inj_right' hfront (by decide)
  exact absurd hsame (by decide)

theorem recordAt_insert_other
    {texts : Ipv6NetTexts} {dir : Directory} {name other : String}
    (bytes : Bytes) (hother : name ≠ other) :
    recordAt texts (dir.insert other bytes) name =
      recordAt texts dir name := by
  rw [recordAt, recordAt, AList.lookup_insert_ne hother]

theorem recordAt_erase_other
    {texts : Ipv6NetTexts} {dir : Directory} {name other : String}
    (hother : name ≠ other) :
    recordAt texts (dir.erase other) name = recordAt texts dir name := by
  rw [recordAt, recordAt, AList.lookup_erase_ne hother]

/-- Nothing that happens to a temporary file is seen. -/
theorem Represents.insert_temp
    {texts : Ipv6NetTexts} {dir : Directory}
    {table : AList fun _ : String => PersistedVm}
    (hrepresents : Represents texts dir table) (vmId : String)
    (bytes : Bytes) :
    Represents texts (dir.insert (tempFile vmId) bytes) table := by
  intro name hname
  have hother : name ≠ tempFile vmId := by
    rintro rfl
    rw [tempFile_hidden] at hname
    cases hname
  rw [recordAt_insert_other bytes hother]
  exact hrepresents name hname

theorem Represents.save
    {texts : Ipv6NetTexts} {dir : Directory}
    {table : AList fun _ : String => PersistedVm} (stateDir : String)
    (hrepresents : Represents texts dir table) (vmId : String)
    (stored : StoredVm) (outcome : SaveOutcome) :
    Represents texts (saveFile texts stateDir dir vmId stored outcome).2
      (stepTable table (.save vmId stored outcome)) := by
  cases outcome with
  | noDirectory message => exact hrepresents
  | notCreated message => exact hrepresents
  | interrupted written message => exact hrepresents.insert_temp vmId _
  | notSynced message => exact hrepresents.insert_temp vmId _
  | notRenamed message => exact hrepresents.insert_temp vmId _
  | saved =>
      intro name hname
      have htemp : name ≠ tempFile vmId := by
        rintro rfl
        rw [tempFile_hidden] at hname
        cases hname
      simp only [saveFile, stepTable, SaveOutcome.done, if_true]
      by_cases hsame : name = stateFile vmId
      · rw [hsame, recordAt, AList.lookup_insert, AList.lookup_insert,
          Option.bind_some, readRecord_recordBytes, Option.map_some]
      · rw [recordAt_insert_other _ hsame, recordAt_erase_other htemp,
          recordAt_insert_other _ htemp, AList.lookup_insert_ne hsame]
        exact hrepresents name hname

theorem Represents.delete
    {texts : Ipv6NetTexts} {dir : Directory}
    {table : AList fun _ : String => PersistedVm} (stateDir : String)
    (hrepresents : Represents texts dir table) (vmId : String)
    (removal : Except String Unit) :
    Represents texts (deleteFile stateDir dir vmId removal).2
      (stepTable table (.delete vmId removal)) := by
  cases removal with
  | error message =>
      simp only [deleteFile, stepTable, Except.isOk, Except.toBool,
        Bool.false_eq_true, if_false]
      split_ifs with hthere
      · exact hrepresents
      · exact hrepresents
  | ok done =>
      intro name hname
      simp only [deleteFile, stepTable, Except.isOk, Except.toBool, if_true]
      by_cases hsame : name = stateFile vmId
      · rw [hsame, recordAt, AList.lookup_erase, AList.lookup_erase]
        rfl
      · rw [recordAt_erase_other hsame, AList.lookup_erase_ne hsame]
        exact hrepresents name hname

theorem Represents.step
    {texts : Ipv6NetTexts} {dir : Directory}
    {table : AList fun _ : String => PersistedVm} (stateDir : String)
    (hrepresents : Represents texts dir table) (op : StateOp) :
    Represents texts (stepFiles texts stateDir dir op)
      (stepTable table op) := by
  cases op with
  | save vmId stored outcome =>
      exact hrepresents.save stateDir vmId stored outcome
  | delete vmId removal => exact hrepresents.delete stateDir vmId removal

theorem Represents.run
    {texts : Ipv6NetTexts} {dir : Directory}
    {table : AList fun _ : String => PersistedVm} (stateDir : String)
    (hrepresents : Represents texts dir table) (ops : List StateOp) :
    Represents texts (run (stepFiles texts stateDir) dir ops)
      (run stepTable table ops) := by
  induction ops generalizing dir table with
  | nil => exact hrepresents
  | cons op rest ih => exact ih (hrepresents.step stateDir op)

/-! ## What is loaded -/

/-- A list of values under different names is determined by the names and
their values, up to its order. -/
theorem perm_of_lookups
    {α : Type} {first second : List (String × α)}
    (hfirst : (first.map Prod.fst).Nodup)
    (hsecond : (second.map Prod.fst).Nodup)
    (hsame : ∀ entry, entry ∈ first ↔ entry ∈ second) :
    (first.map Prod.snd).Perm (second.map Prod.snd) :=
  ((List.perm_ext_iff_of_nodup hfirst.of_map hsecond.of_map).mpr
    hsame).map Prod.snd

/-- The records of a directory that a recovery sees, with their names. -/
def namedRecords (texts : Ipv6NetTexts) (calls : RestartCalls)
    (dir : Directory) : List (String × PersistedVm) :=
  (dir.entries.filter fun entry =>
    hasJsonExtension entry.1 && calls.readable entry.1).filterMap
      fun entry => (readRecord texts entry.2).map fun stored =>
        (entry.1, stored.vm)

/-- The same for the table. -/
def namedTable (calls : RestartCalls)
    (table : AList fun _ : String => PersistedVm) :
    List (String × PersistedVm) :=
  (table.entries.filter fun entry =>
    hasJsonExtension entry.1 && calls.readable entry.1).map
      fun entry => (entry.1, entry.2)

theorem namedRecords_nodup
    (texts : Ipv6NetTexts) (calls : RestartCalls) (dir : Directory) :
    ((namedRecords texts calls dir).map Prod.fst).Nodup := by
  have hsub : ((namedRecords texts calls dir).map Prod.fst).Sublist
      dir.keys := by
    have hfilter : (dir.entries.filter fun entry =>
        hasJsonExtension entry.1 && calls.readable entry.1).Sublist
        dir.entries := List.filter_sublist
    apply List.Sublist.trans _ (hfilter.map Sigma.fst)
    unfold namedRecords
    generalize dir.entries.filter _ = entries
    induction entries with
    | nil => exact List.Sublist.slnil
    | cons entry rest ih =>
        cases hread : readRecord texts entry.2 with
        | none =>
            rw [List.filterMap_cons_none (by simp [hread]), List.map_cons]
            exact ih.cons _
        | some stored =>
            rw [List.filterMap_cons_some (by simp only [hread]; rfl),
              List.map_cons, List.map_cons]
            exact ih.cons_cons _
  exact dir.keys_nodup.sublist hsub

theorem namedTable_nodup
    (calls : RestartCalls) (table : AList fun _ : String => PersistedVm) :
    ((namedTable calls table).map Prod.fst).Nodup := by
  have hkeys : (namedTable calls table).map Prod.fst =
      (table.entries.filter fun entry =>
        hasJsonExtension entry.1 && calls.readable entry.1).map
          Sigma.fst := by
    rw [namedTable, List.map_map]
    rfl
  rw [hkeys]
  exact table.keys_nodup.sublist (List.filter_sublist.map Sigma.fst)

theorem mem_namedRecords
    {texts : Ipv6NetTexts} {calls : RestartCalls} {dir : Directory}
    {name : String} {persisted : PersistedVm} :
    (name, persisted) ∈ namedRecords texts calls dir ↔
      hasJsonExtension name = true ∧ calls.readable name = true ∧
        recordAt texts dir name = some persisted := by
  simp only [namedRecords, List.mem_filterMap, List.mem_filter,
    Bool.and_eq_true, Option.map_eq_some_iff, Prod.mk.injEq, recordAt,
    Option.bind_eq_some_iff]
  constructor
  · rintro ⟨⟨found, bytes⟩, ⟨hentry, hname⟩, stored, hread, rfl, rfl⟩
    exact ⟨hname.1, hname.2, bytes, AList.mem_lookup_iff.mpr hentry,
      stored, hread, rfl⟩
  · rintro ⟨hextension, hreadable, bytes, hlookup, stored, hread, rfl⟩
    exact ⟨⟨name, bytes⟩, ⟨AList.mem_lookup_iff.mp hlookup, hextension,
      hreadable⟩, stored, hread, rfl, rfl⟩

theorem mem_namedTable
    {calls : RestartCalls} {table : AList fun _ : String => PersistedVm}
    {name : String} {persisted : PersistedVm} :
    (name, persisted) ∈ namedTable calls table ↔
      hasJsonExtension name = true ∧ calls.readable name = true ∧
        table.lookup name = some persisted := by
  simp only [namedTable, List.mem_map, List.mem_filter, Bool.and_eq_true,
    Prod.mk.injEq]
  constructor
  · rintro ⟨⟨found, value⟩, ⟨hentry, hname⟩, rfl, rfl⟩
    exact ⟨hname.1, hname.2, AList.mem_lookup_iff.mpr hentry⟩
  · rintro ⟨hextension, hreadable, hlookup⟩
    exact ⟨⟨name, persisted⟩, ⟨AList.mem_lookup_iff.mp hlookup, hextension,
      hreadable⟩, rfl, rfl⟩

/-- From a directory that represents the table the same records are
loaded. -/
theorem Represents.load
    {texts : Ipv6NetTexts} {dir : Directory}
    {table : AList fun _ : String => PersistedVm}
    (hrepresents : Represents texts dir table) (calls : RestartCalls) :
    (loadFiles texts calls dir).map Multiset.ofList =
      (loadAllVms calls table).map Multiset.ofList := by
  unfold loadFiles loadAllVms
  cases calls.readDir with
  | error message => rfl
  | ok done =>
      have hrecords : ((calls.order.arrange (dir.entries.filter
          fun entry => hasJsonExtension entry.1 &&
            calls.readable entry.1)).filterMap fun entry =>
              (readRecord texts entry.2).map StoredVm.vm).Perm
          ((namedRecords texts calls dir).map Prod.snd) := by
        refine ((calls.order.perm _).filterMap _).trans ?_
        rw [namedRecords, List.map_filterMap]
        simp only [Option.map_map]
        exact List.Perm.refl _
      have htable : ((calls.order.arrange (table.entries.filter
          fun entry => hasJsonExtension entry.1 &&
            calls.readable entry.1)).map fun entry => entry.2).Perm
          ((namedTable calls table).map Prod.snd) := by
        refine ((calls.order.perm _).map _).trans ?_
        rw [namedTable, List.map_map]
        exact List.Perm.refl _
      have hnamed : ((namedRecords texts calls dir).map Prod.snd).Perm
          ((namedTable calls table).map Prod.snd) := by
        apply perm_of_lookups (namedRecords_nodup texts calls dir)
          (namedTable_nodup calls table)
        rintro ⟨name, persisted⟩
        rw [mem_namedRecords, mem_namedTable]
        apply and_congr_right
        intro hextension
        rw [hrepresents name hextension]
      exact congrArg Except.ok (Multiset.coe_eq_coe.mpr
        (hrecords.trans (hnamed.trans htable.symm)))

/-- The manager works on a table of records; the directory of texts loads the
same records after any sequence of saves and deletions, of which any may
fail or be cut off anywhere, and whatever else lies in the directory. -/
theorem state_directory_refines
    (texts : Ipv6NetTexts) (stateDir : String) (dir : Directory)
    (table : AList fun _ : String => PersistedVm)
    (hrepresents : Represents texts dir table) (ops : List StateOp)
    (calls : RestartCalls) :
    (loadFiles texts calls
        (run (stepFiles texts stateDir) dir ops)).map Multiset.ofList =
      (loadAllVms calls (run stepTable table ops)).map Multiset.ofList :=
  (hrepresents.run stateDir ops).load calls

/-- A file that was cut off, and one that a save left behind. -/
def leftoverDirectory : Directory :=
  ((∅ : Directory).insert "vm-b.json" "[".toUTF8.toList).insert
    "vm-a.json.tmp" []

theorem leftoverDirectory_represents :
    Represents displayedIpv6Nets leftoverDirectory ∅ := by
  intro name hname
  have htemp : name ≠ "vm-a.json.tmp" := by
    rintro rfl
    exact absurd hname (by decide)
  rw [leftoverDirectory, recordAt_insert_other [] htemp, recordAt]
  by_cases hsame : name = "vm-b.json"
  · rw [hsame, AList.lookup_insert, Option.bind_some, readRecord,
      textOf_toUTF8]
    rfl
  · rw [AList.lookup_insert_ne hsame]
    rfl

theorem state_directory_refines_from_leftovers :
    (loadFiles displayedIpv6Nets smallStart.restart
        (run (stepFiles displayedIpv6Nets "/var/lib/aleph-cvm")
          leftoverDirectory
          [.save "vm-a" ⟨smallPersisted, by decide⟩ .saved,
            .save "vm-a" ⟨smallPersisted, by decide⟩
              (.interrupted 7 "no space left"),
            .delete "vm-b" (.error "permission denied")])).map
          Multiset.ofList =
      (loadAllVms smallStart.restart (run stepTable ∅
        [.save "vm-a" ⟨smallPersisted, by decide⟩ .saved,
          .save "vm-a" ⟨smallPersisted, by decide⟩
            (.interrupted 7 "no space left"),
          .delete "vm-b" (.error "permission denied")])).map
        Multiset.ofList :=
  state_directory_refines displayedIpv6Nets "/var/lib/aleph-cvm"
    leftoverDirectory ∅ leftoverDirectory_represents _ smallStart.restart

end AlephCvm.Vm

import Mathlib.Data.List.Forall2
import Mathlib.Data.List.Infix
import Mathlib.Data.List.Perm.Basic
import AlephCvm.CpuLists

/-!
# Detection of the NUMA topology

Model of `NumaTopology::from_sysfs`, and of the directory tree that the kernel
shows for a host: one directory for each node, in any order and between other
entries, with the node's CPU list, page counts and memory information.

The nodes are read back in the order of their ids unless one of them has no
CPU: its list is an empty line, which `parse_cpulist` refuses, and then no
node is detected.
-/

namespace AlephCvm.Numa

open ResultContext
open Qemu (trimText textLines splitWhitespace)

/-! ## Directories and files -/

/-- What reading each file of a node directory gives. -/
structure NodeFiles where
  cpulist : Except String String
  hugepages2m : Except String String
  hugepages1g : Except String String
  meminfo : Except String String

/-- An entry of the base directory, without a name if that is not UTF-8. -/
structure DirEntry where
  name : Option String
  files : NodeFiles

/-- `str::strip_prefix`. -/
def stripPrefix (front text : String) : Option String :=
  if front.toList.isPrefixOf text.toList then
    some (String.ofList (text.toList.drop front.toList.length))
  else none

/-- `str::parse::<u64>`. -/
def parseU64 (text : String) : Except String UInt64 :=
  match DecimalText.parse UInt64.size text.toList with
  | .ok number => .ok (UInt64.ofNat number)
  | .error failure => .error failure.describe

/-- The value of the first line with `MemTotal:`, the second word from the
right. -/
def parseMemtotalKb (meminfo : String) : Except String UInt64 :=
  match (textLines meminfo).find? fun line =>
      decide ("MemTotal:".toList <:+: line.toList) with
  | none => .error "MemTotal not found in meminfo"
  | some line => do
      let kbStr ← optionContext "malformed MemTotal line"
        (splitWhitespace line).reverse[1]?
      context "failed to parse MemTotal value" (parseU64 kbStr)

def DirEntry.isNode (entry : DirEntry) : Bool :=
  match entry.name with
  | none => false
  | some name => (stripPrefix "node" name).isSome

/-- The number in the name, or the largest one. -/
def DirEntry.sortKey (entry : DirEntry) : UInt32 :=
  match entry.name.bind (stripPrefix "node") with
  | none => 4294967295
  | some digits =>
      match parseU32 digits with
      | .ok id => id
      | .error _ => 4294967295

/-- The body of the loop. -/
def readNode (entry : DirEntry) : Except String NumaNode := do
  let name ← optionContext "non-UTF-8 node directory name" entry.name
  let digits ← optionContext "unexpected directory name"
    (stripPrefix "node" name)
  let id ← context s!"failed to parse node ID from {name}" (parseU32 digits)
  let cpulistRaw ← context s!"failed to read cpulist for {name}"
    entry.files.cpulist
  let cpus ← parseCpulist (trimText cpulistRaw)
  let raw2m ← context s!"failed to read 2M hugepages for {name}"
    entry.files.hugepages2m
  let total2m ← context s!"failed to parse 2M hugepage count for {name}"
    (parseU32 (trimText raw2m))
  let raw1g := entry.files.hugepages1g.toOption.getD "0"
  let total1g := (parseU32 (trimText raw1g)).toOption.getD 0
  let meminfo ← context s!"failed to read meminfo for {name}"
    entry.files.meminfo
  let totalKb ← context s!"failed to parse MemTotal for {name}"
    (parseMemtotalKb meminfo)
  return ⟨id, cpus, total2m, total1g, (totalKb / 1024).toUInt32⟩

/-- Entries that cannot be read are passed over, the others sorted. -/
def sortedEntries (listing : List (Except String DirEntry)) :
    List DirEntry :=
  ((listing.filterMap Except.toOption).filter DirEntry.isNode).mergeSort
    fun first second => decide (first.sortKey ≤ second.sortKey)

def fromSysfs (base : String)
    (readDir : Except String (List (Except String DirEntry))) :
    Except String NumaTopology := do
  let listing ← context s!"failed to read {base}" readDir
  let nodes ← (sortedEntries listing).mapM readNode
  return ⟨nodes⟩

/-! ## What the kernel shows -/

/-- A node with what the kernel knows of it; without 1 GiB pages there is no
file for them. -/
structure KernelNode where
  id : UInt32
  cpus : CpuSet
  hugepages2m : UInt32
  hugepages1g : Option UInt32
  memTotalKb : ℕ
  memTotal_lt : memTotalKb / 1024 < 2 ^ 32

def KernelNode.toNumaNode (node : KernelNode) : NumaNode :=
  ⟨node.id, node.cpus, node.hugepages2m, node.hugepages1g.getD 0,
    UInt32.ofNat (node.memTotalKb / 1024)⟩

def blanks (count : ℕ) : String := String.ofList (List.replicate count ' ')

/-- The first line of a node's memory information. -/
def memTotalLine (node : KernelNode) (padding : ℕ) : String :=
  "Node " ++ toString node.id ++ " MemTotal:" ++ blanks padding ++ " " ++
    toString node.memTotalKb ++ " " ++ "kB"

/-- A directory entry as the kernel shows a node. -/
structure ShowsNode (entry : DirEntry) (node : KernelNode) : Prop where
  name_eq : entry.name = some ("node" ++ toString node.id)
  cpulist_eq : entry.files.cpulist = .ok (formatCpuset node.cpus ++ "\n")
  hugepages2m_eq :
    entry.files.hugepages2m = .ok (toString node.hugepages2m ++ "\n")
  hugepages1g_eq : entry.files.hugepages1g.toOption =
    node.hugepages1g.map fun count => toString count ++ "\n"
  meminfo_eq : ∃ padding rest, entry.files.meminfo =
    .ok (memTotalLine node padding ++ "\n" ++ rest)

/-- The nodes of a host. -/
structure KernelHost where
  nodes : List KernelNode
  distinct : (nodes.map KernelNode.id).Nodup

/-- A listing has one entry for each node and no other name that starts with
`node`. -/
def KernelHost.Shown (host : KernelHost)
    (listing : List (Except String DirEntry)) : Prop :=
  ∃ entries, List.Forall₂ ShowsNode entries host.nodes ∧
    ((listing.filterMap Except.toOption).filter DirEntry.isNode).Perm entries

/-- Exactly the nodes of the host, in increasing order. -/
structure DetectedAs (host : KernelHost) (topology : NumaTopology) : Prop where
  perm : topology.nodes.Perm (host.nodes.map KernelNode.toNumaNode)
  increasing : topology.nodes.Pairwise fun first second =>
    first.id < second.id

def KernelHost.Detected (host : KernelHost) : Prop :=
  ∀ base listing, host.Shown listing →
    ∃ topology, fromSysfs base (.ok listing) = .ok topology ∧
      DetectedAs host topology

/-! ## Reading the files of a node -/

theorem stripPrefix_append (front rest : String) :
    stripPrefix front (front ++ rest) = some rest := by
  have hprefix : front.toList.isPrefixOf (front ++ rest).toList = true := by
    rw [String.toList_append, List.isPrefixOf_iff_prefix]
    exact List.prefix_append _ _
  rw [stripPrefix, if_pos hprefix, String.toList_append, List.drop_left,
    String.ofList_toList]

theorem parseU32_line (number : UInt32) :
    parseU32 (trimText (toString number ++ "\n")) = .ok number := by
  have hdigits : ∀ symbol ∈ (toString number).toList,
      SplitText.isWhiteSpace symbol = false :=
    DecimalText.toString_no_whitespace number.toNat
  rw [Qemu.trimText_append_newline hdigits, parseU32_toString]

theorem trimText_cpulist (cpus : CpuSet) :
    trimText (formatCpuset cpus ++ "\n") = formatCpuset cpus := by
  rw [formatCpuset_eq_runsText]
  exact Qemu.trimText_append_newline (runsText_no_whitespace _)

theorem parseU64_toString {number : ℕ} (hnumber : number < UInt64.size) :
    parseU64 (toString number) = .ok (UInt64.ofNat number) := by
  rw [parseU64, DecimalText.parse_toString hnumber]

/-! ## The memory information -/

theorem memTotalLine_one_line (node : KernelNode) (padding : ℕ) :
    '\n' ∉ (memTotalLine node padding).toList := by
  have hid : '\n' ∉ (toString node.id).toList :=
    DecimalText.not_mem_toString rfl node.id.toNat
  have htotal : '\n' ∉ (toString node.memTotalKb).toList :=
    DecimalText.not_mem_toString rfl _
  have hblanks : '\n' ∉ (blanks padding).toList := by
    simp [blanks]
  simp only [memTotalLine, String.toList_append, List.mem_append, hid,
    htotal, hblanks]
  simp

theorem memTotalLine_contains (node : KernelNode) (padding : ℕ) :
    "MemTotal:".toList <:+: (memTotalLine node padding).toList := by
  refine ⟨("Node " ++ toString node.id ++ " ").toList,
    (blanks padding ++ " " ++ toString node.memTotalKb ++ " " ++
      "kB").toList, ?_⟩
  simp [memTotalLine, String.toList_append]

/-- The value is the second word from the right. -/
theorem memTotalLine_words (node : KernelNode) (padding : ℕ) :
    (splitWhitespace (memTotalLine node padding)).reverse[1]? =
      some (toString node.memTotalKb) := by
  have hunit : ∀ symbol ∈ "kB".toList,
      SplitText.isWhiteSpace symbol = false := by
    simp [SplitText.isWhiteSpace]
  rw [memTotalLine, Qemu.splitWhitespace_append_word _ (by simp) hunit,
    Qemu.splitWhitespace_append_word _ (DecimalText.toString_ne_empty _)
      (DecimalText.toString_no_whitespace _)]
  simp

theorem parseMemtotalKb_shown (node : KernelNode) (padding : ℕ)
    (rest : String) :
    parseMemtotalKb (memTotalLine node padding ++ "\n" ++ rest) =
      .ok (UInt64.ofNat node.memTotalKb) := by
  have hbound : node.memTotalKb < UInt64.size := by
    have hmib := node.memTotal_lt
    unfold UInt64.size
    omega
  have hfound : (memTotalLine node padding :: textLines rest).find?
      (fun line => decide ("MemTotal:".toList <:+: line.toList)) =
        some (memTotalLine node padding) :=
    List.find?_cons_of_pos
      (decide_eq_true (memTotalLine_contains node padding))
  rw [parseMemtotalKb, Qemu.textLines_append (memTotalLine_one_line _ _),
    hfound]
  simp only [memTotalLine_words, optionContext, bind, Except.bind,
    parseU64_toString hbound, context]

theorem ramMb_shown (node : KernelNode) :
    (UInt64.ofNat node.memTotalKb / 1024).toUInt32 =
      UInt32.ofNat (node.memTotalKb / 1024) := by
  have hmib := node.memTotal_lt
  have hwhole : node.memTotalKb < 2 ^ 64 := by omega
  rw [← UInt32.toNat_inj, UInt64.toNat_toUInt32, UInt64.toNat_div,
    UInt64.toNat_ofNat', UInt32.toNat_ofNat', Nat.mod_eq_of_lt hwhole]
  rfl

/-! ## Reading a directory -/

variable {entry : DirEntry} {node : KernelNode}

theorem ShowsNode.isNode (hshows : ShowsNode entry node) :
    entry.isNode = true := by
  simp only [DirEntry.isNode, hshows.name_eq, stripPrefix_append,
    Option.isSome_some]

theorem ShowsNode.sortKey_eq (hshows : ShowsNode entry node) :
    entry.sortKey = node.id := by
  simp only [DirEntry.sortKey, hshows.name_eq, Option.bind_some,
    stripPrefix_append, parseU32_toString]

theorem ShowsNode.readNode_eq (hshows : ShowsNode entry node)
    (hcpus : node.cpus.val ≠ []) :
    readNode entry = .ok node.toNumaNode := by
  obtain ⟨padding, rest, hmeminfo⟩ := hshows.meminfo_eq
  have hcpulist := parseCpulist_formatCpuset hcpus
  have h1g : (parseU32 (trimText
      (entry.files.hugepages1g.toOption.getD "0"))).toOption.getD 0 =
        node.hugepages1g.getD 0 := by
    rw [hshows.hugepages1g_eq]
    cases node.hugepages1g with
    | none => rfl
    | some count =>
        simp only [Option.map_some, Option.getD_some, parseU32_line]
        rfl
  simp only [readNode, hshows.name_eq, optionContext, bind, Except.bind,
    stripPrefix_append, parseU32_toString, context, hshows.cpulist_eq,
    trimText_cpulist, hcpulist, hshows.hugepages2m_eq, parseU32_line, h1g,
    hmeminfo, parseMemtotalKb_shown, pure, Except.pure, ramMb_shown]
  rfl

/-- An empty line is no CPU list. -/
theorem ShowsNode.readNode_of_no_cpus (hshows : ShowsNode entry node)
    (hcpus : node.cpus.val = []) :
    readNode entry = .error "invalid cpu id" := by
  have hparse : parseCpulist (trimText (formatCpuset node.cpus ++ "\n")) =
      .error "invalid cpu id" := by
    rw [trimText_cpulist, formatCpuset, hcpus]
    rfl
  simp only [readNode, hshows.name_eq, optionContext, bind, Except.bind,
    stripPrefix_append, parseU32_toString, context, hshows.cpulist_eq, hparse]

/-! ## Reading the whole directory -/

theorem readNodes_eq_ok {entries : List DirEntry} {nodes : List KernelNode}
    (hshows : List.Forall₂ ShowsNode entries nodes)
    (hcpus : ∀ node ∈ nodes, node.cpus.val ≠ []) :
    entries.mapM readNode = .ok (nodes.map KernelNode.toNumaNode) := by
  induction hshows with
  | nil => rfl
  | cons hfirst hrest ih =>
      rw [List.forall_mem_cons] at hcpus
      rw [mapM_cons_eq_ok]
      exact ⟨_, _, hfirst.readNode_eq hcpus.1, ih hcpus.2, rfl⟩

theorem sortKeys_eq {entries : List DirEntry} {nodes : List KernelNode}
    (hshows : List.Forall₂ ShowsNode entries nodes) :
    entries.map DirEntry.sortKey = nodes.map KernelNode.id := by
  induction hshows with
  | nil => rfl
  | cons hfirst hrest ih =>
      rw [List.map_cons, List.map_cons, hfirst.sortKey_eq, ih]

theorem sortedEntries_pairwise (listing : List (Except String DirEntry)) :
    (sortedEntries listing).Pairwise fun first second =>
      first.sortKey ≤ second.sortKey := by
  have htrans : ∀ first second third : DirEntry,
      decide (first.sortKey ≤ second.sortKey) = true →
      decide (second.sortKey ≤ third.sortKey) = true →
      decide (first.sortKey ≤ third.sortKey) = true := by
    intro first second third hfirst hsecond
    rw [decide_eq_true_eq] at hfirst hsecond ⊢
    exact UInt32.le_trans hfirst hsecond
  have htotal : ∀ first second : DirEntry,
      (decide (first.sortKey ≤ second.sortKey) ||
        decide (second.sortKey ≤ first.sortKey)) = true := by
    intro first second
    rw [Bool.or_eq_true, decide_eq_true_eq, decide_eq_true_eq]
    exact UInt32.le_total _ _
  have hsorted := List.pairwise_mergeSort htrans htotal
    ((listing.filterMap Except.toOption).filter DirEntry.isNode)
  exact hsorted.imp fun hle => of_decide_eq_true hle

/-- The sorted entries show the nodes of the host in the order of their
ids. -/
theorem exists_sorted_nodes {host : KernelHost}
    {listing : List (Except String DirEntry)} (hshown : host.Shown listing) :
    ∃ nodes, List.Forall₂ ShowsNode (sortedEntries listing) nodes ∧
      nodes.Perm host.nodes ∧
      nodes.Pairwise fun first second => first.id < second.id := by
  obtain ⟨entries, hentries, hperm⟩ := hshown
  have hsorted : (sortedEntries listing).Perm entries :=
    (List.mergeSort_perm _ _).trans hperm
  obtain ⟨nodes, hnodes, hsame⟩ := List.perm_comp_forall₂ hsorted hentries
  refine ⟨nodes, hnodes, hsame, ?_⟩
  have hkeys := (List.pairwise_map.mpr (sortedEntries_pairwise listing))
  rw [sortKeys_eq hnodes, List.pairwise_map] at hkeys
  have hdistinct : (nodes.map KernelNode.id).Nodup :=
    (hsame.map KernelNode.id).nodup_iff.mpr host.distinct
  have hne := List.pairwise_map.mp hdistinct
  exact (hkeys.and hne).imp fun hboth =>
    UInt32.lt_of_le_of_ne hboth.1 hboth.2

theorem exists_entry_of_mem {entries : List DirEntry}
    {nodes : List KernelNode} {node : KernelNode}
    (hshows : List.Forall₂ ShowsNode entries nodes) (hnode : node ∈ nodes) :
    ∃ entry ∈ entries, ShowsNode entry node := by
  induction hshows with
  | nil => cases hnode
  | cons hfirst hrest ih =>
      rw [List.exists_mem_cons_iff]
      rcases List.mem_cons.mp hnode with rfl | hlater
      · exact Or.inl hfirst
      · exact Or.inr (ih hlater)

theorem detected_of_cpus {host : KernelHost}
    (hcpus : ∀ node ∈ host.nodes, node.cpus.val ≠ []) : host.Detected := by
  intro base listing hshown
  obtain ⟨nodes, hnodes, hperm, hincreasing⟩ := exists_sorted_nodes hshown
  have hread := readNodes_eq_ok hnodes fun node hnode =>
    hcpus node (hperm.mem_iff.mp hnode)
  refine ⟨⟨nodes.map KernelNode.toNumaNode⟩, ?_, ?_, ?_⟩
  · simp only [fromSysfs, context, bind, Except.bind, hread]
    rfl
  · exact hperm.map KernelNode.toNumaNode
  · exact List.pairwise_map.mpr hincreasing

/-! ## Nodes without CPUs -/

/-- The entry of a node with seven blanks in its memory information and
nothing behind the first line. -/
def KernelNode.shownEntry (node : KernelNode) : DirEntry where
  name := some ("node" ++ toString node.id)
  files :=
    { cpulist := .ok (formatCpuset node.cpus ++ "\n")
      hugepages2m := .ok (toString node.hugepages2m ++ "\n")
      hugepages1g :=
        match node.hugepages1g with
        | some count => .ok (toString count ++ "\n")
        | none => .error "No such file or directory"
      meminfo := .ok (memTotalLine node 7 ++ "\n" ++ "") }

theorem KernelNode.shows_shownEntry (node : KernelNode) :
    ShowsNode node.shownEntry node where
  name_eq := rfl
  cpulist_eq := rfl
  hugepages2m_eq := rfl
  hugepages1g_eq := by
    unfold KernelNode.shownEntry
    cases node.hugepages1g <;> rfl
  meminfo_eq := ⟨7, "", rfl⟩

/-- The directory with nothing but the nodes, in the order of the host. -/
def KernelHost.listing (host : KernelHost) : List (Except String DirEntry) :=
  host.nodes.map fun node => .ok node.shownEntry

theorem KernelHost.shown_listing (host : KernelHost) :
    host.Shown host.listing := by
  have hread : host.listing.filterMap Except.toOption =
      host.nodes.map KernelNode.shownEntry := by
    rw [KernelHost.listing, List.filterMap_map]
    exact congrFun List.filterMap_eq_map host.nodes
  have hnodes : (host.nodes.map KernelNode.shownEntry).filter DirEntry.isNode =
      host.nodes.map KernelNode.shownEntry := by
    rw [List.filter_eq_self]
    intro entry hentry
    obtain ⟨node, -, rfl⟩ := List.mem_map.mp hentry
    exact node.shows_shownEntry.isNode
  refine ⟨host.nodes.map KernelNode.shownEntry, ?_, ?_⟩
  · rw [List.forall₂_map_left_iff, List.forall₂_same]
    exact fun node _ => node.shows_shownEntry
  · rw [hread, hnodes]

/-- A node without CPUs keeps every node from being detected. -/
theorem fromSysfs_of_no_cpus {host : KernelHost} {node : KernelNode}
    (hnode : node ∈ host.nodes) (hcpus : node.cpus.val = [])
    {listing : List (Except String DirEntry)} (hshown : host.Shown listing)
    (base : String) (topology : NumaTopology) :
    fromSysfs base (.ok listing) ≠ .ok topology := by
  intro hok
  obtain ⟨nodes, hnodes, hperm, -⟩ := exists_sorted_nodes hshown
  obtain ⟨entry, hentry, hshows⟩ :=
    exists_entry_of_mem hnodes (hperm.mem_iff.mpr hnode)
  simp only [fromSysfs, bind_eq_ok, context_eq_ok, Except.ok.injEq,
    exists_eq_left'] at hok
  obtain ⟨read, hread, -⟩ := hok
  obtain ⟨value, hvalue⟩ := exists_ok_of_mapM hread entry hentry
  rw [hshows.readNode_of_no_cpus hcpus] at hvalue
  cases hvalue

/-- The host is detected exactly when every node has a CPU. -/
theorem topology_detected_iff (host : KernelHost) :
    host.Detected ↔ ∀ node ∈ host.nodes, node.cpus.val ≠ [] := by
  constructor
  · intro hdetected node hnode hcpus
    obtain ⟨topology, hok, -⟩ :=
      hdetected "" host.listing host.shown_listing
    exact fromSysfs_of_no_cpus hnode hcpus host.shown_listing "" topology hok
  · exact detected_of_cpus

theorem sampleMemory_lt : 65536000 / 1024 < 2 ^ 32 := by
  decide

/-- A node with four CPUs and one with memory only. -/
def memoryOnlyNodes : List KernelNode :=
  [⟨0, CpuSet.empty.extend [0, 1, 2, 3], 100, some 2, 65536000,
      sampleMemory_lt⟩,
    ⟨1, .empty, 200, none, 65536000, sampleMemory_lt⟩]

theorem memoryOnlyNodes_distinct :
    (memoryOnlyNodes.map KernelNode.id).Nodup := by
  decide

def memoryOnlyHost : KernelHost := ⟨memoryOnlyNodes, memoryOnlyNodes_distinct⟩

theorem memory_only_host_not_detected : ¬ memoryOnlyHost.Detected := by
  intro hdetected
  obtain ⟨topology, hok, -⟩ :=
    hdetected "" memoryOnlyHost.listing memoryOnlyHost.shown_listing
  have hnode : ∃ node ∈ memoryOnlyHost.nodes, node.cpus.val = [] := by
    simp [memoryOnlyHost, memoryOnlyNodes, CpuSet.empty]
  obtain ⟨node, hmem, hcpus⟩ := hnode
  exact fromSysfs_of_no_cpus hmem hcpus memoryOnlyHost.shown_listing ""
    topology hok

end AlephCvm.Numa

import Mathlib
import Vswitch.Netlink.Family
import Vswitch.Proofs.Attribute.Typed
import Vswitch.Proofs.Netlink.Datagram

/-!
# Families, described and read back

A family is described by attributes: its name and numbers, and its groups under running types in whatever
order they are kept. The description is written whole exactly if the name fits an attribute and all groups
together fit one, which does not depend on their order; else it is refused as too long. Sent in a message
it is read back with all groups under their names.

* `Family.insertGroup_of_not_mem`, `Family.foldl_insertGroup`: groups under different names are all kept;
* `Family.group?_eq_some_iff`, `Family.SameAs`: the order of the groups does not show in a look-up;
* `Family.Fits`, `Family.refusedAll_trees_iff`: which descriptions are written whole;
* `Family.Representable`, `Family.decodeAttributes_of_reads`: a description read back;
* `Family.descriptions_read_back`: a family that is described, sent and read.
-/

namespace Vswitch

open AttrTree

namespace Family

variable {f : Family} {groups known : List (String × UInt32)} {name : String} {attrs : Attributes}

/-! ## Groups by name -/

/-- A group under a name that is not there yet is kept beside the others. -/
theorem insertGroup_of_not_mem (hnew : name ∉ known.map Prod.fst) (id : UInt32) :
    insertGroup known name id = known ++ [(name, id)] := by
  have hkeep : known.filter (·.1 != name) = known := by
    rw [List.filter_eq_self]
    intro g hg
    exact bne_iff_ne.mpr fun hsame => hnew (hsame ▸ List.mem_map_of_mem hg)
  rw [insertGroup, hkeep]

/-- Groups under different names are all kept, in the order in which they come. -/
theorem foldl_insertGroup (hdistinct : ((known ++ groups).map Prod.fst).Nodup) :
    groups.foldl (fun known g => insertGroup known g.1 g.2) known = known ++ groups := by
  induction groups generalizing known with
  | nil => rw [List.foldl_nil, List.append_nil]
  | cons g later ih =>
    have hsplit : known ++ g :: later = known ++ [g] ++ later := by simp
    rw [hsplit] at hdistinct ⊢
    have hnew : g.1 ∉ known.map Prod.fst := by
      have hfront := hdistinct
      rw [List.map_append, List.map_append] at hfront
      have hknown := List.disjoint_of_nodup_append (List.nodup_append.mp hfront).1
      intro hmem
      exact hknown hmem List.mem_cons_self
    rw [List.foldl_cons, insertGroup_of_not_mem hnew]
    exact ih hdistinct

/-- A look-up finds the groups that are there, wherever they stand. -/
theorem group?_eq_some_iff (hdistinct : (f.groups.map Prod.fst).Nodup) {id : UInt32} :
    f.group? name = some id ↔ (name, id) ∈ f.groups := by
  unfold group?
  constructor
  · intro hfound
    rcases List.lookup_eq_some_iff.mp hfound with ⟨before, after, hgroups, -⟩
    rw [hgroups]
    exact List.mem_append_right _ List.mem_cons_self
  · intro hmem
    rcases List.append_of_mem hmem with ⟨before, after, hgroups⟩
    refine List.lookup_eq_some_iff.mpr ⟨before, after, hgroups, ?_⟩
    -- the name stands once, so it does not stand before
    rw [hgroups, List.map_append] at hdistinct
    have happart := List.disjoint_of_nodup_append hdistinct
    intro g hg
    have hbefore : g.1 ∈ before.map Prod.fst := List.mem_map_of_mem hg
    exact bne_iff_ne.mpr fun hsame => happart (hsame ▸ hbefore) List.mem_cons_self

/-- Two descriptions of one family: they agree in all but the order of the groups, and so in every
look-up. -/
structure SameAs (g f : Family) : Prop where
  name : g.name = f.name
  id : g.id = f.id
  version : g.version = f.version
  headerSize : g.headerSize = f.headerSize
  maxAttribute : g.maxAttribute = f.maxAttribute
  groups : g.groups.Perm f.groups
  group? : ∀ name, g.group? name = f.group? name

/-- A family with its groups in another order. -/
def withGroups (f : Family) (written : List (String × UInt32)) : Family := { f with groups := written }

/-- Groups in another order describe the same family. -/
theorem sameAs_withGroups (hdistinct : (f.groups.map Prod.fst).Nodup)
    {written : List (String × UInt32)} (horder : written.Perm f.groups) :
    (f.withGroups written).SameAs f where
  name := rfl
  id := rfl
  version := rfl
  headerSize := rfl
  maxAttribute := rfl
  groups := horder
  group? := by
    intro name
    have hwritten : ((f.withGroups written).groups.map Prod.fst).Nodup :=
      (horder.map Prod.fst).nodup_iff.mpr hdistinct
    apply Option.ext
    intro id
    rw [group?_eq_some_iff hwritten, group?_eq_some_iff hdistinct]
    exact horder.mem_iff

/-! ## Descriptions that are written whole -/

/-- The write of a group under the type that follows `i` others. -/
def groupTree (g : String × UInt32) (i : Nat) : AttrTree :=
  .node (UInt16.ofNat (i + 1)) [.text GroupKind.name g.1, .u32 GroupKind.id g.2]

theorem groupTrees_eq (groups : List (String × UInt32)) :
    groupTrees groups = groups.zipIdx.map fun p => groupTree p.1 p.2 := rfl

/-- Octets of the attribute of a group: its header, the name with the zero that closes it, and the
number. -/
def groupSize (name : String) : Nat := 4 + (Bytes.align4 (4 + (name.utf8ByteSize + 1)) + 8)

/-- The name fits an attribute, and all groups together fit one. -/
structure Fits (f : Family) : Prop where
  name : f.name.utf8ByteSize + 1 ≤ 65531
  groups : 4 + (f.groups.map fun g => groupSize g.1).sum ≤ 65535

/-- A text is written with one octet behind it. -/
theorem length_text (s : String) : (s.toUTF8.toList ++ [(0 : UInt8)]).length = s.utf8ByteSize + 1 := by
  rw [List.length_append, List.length_singleton, Bytes.length_toUTF8]

/-- The size of a group depends on its name alone. -/
theorem size_groupTree (g : String × UInt32) (i : Nat) : size (groupTree g i) = groupSize g.1 := by
  have hid : Bytes.align4 (4 + (Bytes.le32 g.2).length) = 8 := by
    rw [Bytes.length_le32]
    rfl
  simp only [groupTree, text, u32, size, sizeAll, length_text, hid, groupSize, Nat.add_zero]

/-- The size of a group is a multiple of four. -/
theorem dvd_groupSize (name : String) : 4 ∣ groupSize name := by
  have hname := Bytes.dvd_align4 (4 + (name.utf8ByteSize + 1))
  unfold groupSize
  omega

/-- Octets of all groups, whatever their types. -/
theorem sizeAll_groupTrees (groups : List (String × UInt32)) :
    sizeAll (groupTrees groups) = (groups.map fun g => groupSize g.1).sum := by
  have haligned (p : (String × UInt32) × Nat) :
      Bytes.align4 (size (groupTree p.1 p.2)) = groupSize p.1.1 := by
    rw [size_groupTree, Bytes.align4_of_dvd (dvd_groupSize _)]
  have hgroups : groups.map (fun g => groupSize g.1) =
      groups.zipIdx.map fun p => groupSize p.1.1 := by
    conv_lhs => rw [← List.zipIdx_map_fst 0 groups, List.map_map]
    rfl
  rw [sizeAll_eq_sum, groupTrees_eq, List.map_map, hgroups]
  exact congrArg List.sum (List.map_congr_left fun p _ => haligned p)

/-- A group is written whole if it fits an attribute: its name is shorter. -/
theorem refused_groupTree {g : String × UInt32} (hfits : groupSize g.1 ≤ 65535) (i : Nat) :
    refused (groupTree g i) = [] := by
  have hsize := size_groupTree g i
  have hname : g.1.utf8ByteSize + 1 ≤ 65531 := by
    have hle := Bytes.le_align4 (4 + (g.1.utf8ByteSize + 1))
    unfold groupSize at hfits
    omega
  rw [groupTree, size] at hsize
  rw [groupTree, refused_node_eq_nil, hsize]
  refine ⟨?_, hfits⟩
  rw [refusedAll_eq_nil_iff]
  intro tree htree
  rcases List.mem_pair.mp htree with rfl | rfl
  · exact refused_leaf_eq_nil.mpr ((length_text g.1).trans_le hname)
  · exact refused_leaf_eq_nil.mpr (by rw [Bytes.length_le32]; decide)

/-- Groups are refused just if their sizes add up to more than the length field holds. -/
theorem refused_groups (type : UInt16) (groups : List (String × UInt32)) :
    refused (.node type (groupTrees groups)) = [] ↔
      4 + (groups.map fun g => groupSize g.1).sum ≤ 65535 := by
  rw [refused_node_eq_nil, sizeAll_groupTrees]
  constructor
  · exact fun h => h.2
  · intro hfits
    refine ⟨?_, hfits⟩
    rw [refusedAll_eq_nil_iff]
    intro tree htree
    rcases List.mem_map.mp htree with ⟨p, hp, rfl⟩
    -- one group is no longer than all of them
    have hmem : groupSize p.1.1 ∈ groups.map fun g => groupSize g.1 :=
      List.mem_map.mpr ⟨p.1, List.fst_mem_of_mem_zipIdx hp, rfl⟩
    have hle := List.le_sum_of_mem hmem
    have hshort : groupSize p.1.1 ≤ 65535 := by omega
    exact refused_groupTree hshort p.2

/-- A description is written whole exactly if the family fits. -/
theorem refusedAll_trees_iff (f : Family) : refusedAll f.trees = [] ↔ f.Fits := by
  have hname : refused (.text FamilyKind.name f.name) = [] ↔ f.name.utf8ByteSize + 1 ≤ 65531 := by
    rw [text, refused_leaf_eq_nil, length_text]
  have hgroups : (∀ tree ∈ if f.groups.isEmpty then [] else
      [AttrTree.node FamilyKind.groups (groupTrees f.groups)], refused tree = []) ↔
      4 + (f.groups.map fun g => groupSize g.1).sum ≤ 65535 := by
    rcases hempty : f.groups with _ | ⟨g, later⟩
    · simp
    · simp [refused_groups]
  have hword (type : UInt16) {value : Bytes} (hshort : value.length ≤ 4) :
      refused (.leaf type value) = [] :=
    refused_leaf_eq_nil.mpr (Nat.le_trans hshort (by decide))
  have hnumbers : refused (.u16 FamilyKind.id f.id) = [] ∧
      refused (.u32 FamilyKind.version f.version) = [] ∧
      refused (.u32 FamilyKind.headerSize f.headerSize) = [] ∧
      refused (.u32 FamilyKind.maxAttribute f.maxAttribute) = [] :=
    ⟨hword _ (by simp), hword _ (by simp), hword _ (by simp), hword _ (by simp)⟩
  rw [refusedAll_eq_nil_iff, trees, List.forall_mem_append, hgroups]
  simp only [List.forall_mem_cons, hname, hnumbers, List.not_mem_nil, false_implies, implies_true,
    and_true]
  exact ⟨fun h => ⟨h.1, h.2⟩, fun h => ⟨h.name, h.groups⟩⟩

/-- Whether a description fits does not depend on the order of its groups. -/
theorem fits_withGroups {written : List (String × UInt32)} (horder : written.Perm f.groups) :
    (f.withGroups written).Fits ↔ f.Fits := by
  have hsum : (written.map fun g => groupSize g.1).sum = (f.groups.map fun g => groupSize g.1).sum :=
    (horder.map _).sum_eq
  constructor
  · rintro ⟨hname, hgroups⟩
    exact ⟨hname, hsum ▸ hgroups⟩
  · rintro ⟨hname, hgroups⟩
    exact ⟨hname, hsum.symm ▸ hgroups⟩

/-! ## Descriptions read back -/

/-- A group is read back with its name and its identifier. -/
theorem decodeGroup_of_reads {g : String × UInt32} (hname : '\x00' ∉ g.1.toList) {i : Nat} {a : Attr}
    (h : Reads (groupTree g i) a) : decodeGroup a = .ok g := by
  obtain ⟨-, inner, hinner, hreads⟩ := reads_node.mp h
  have hfirst : inner.read Attr.asText GroupKind.name = .ok g.1 :=
    read_of_first? hreads rfl fun a ha => ha.asText hname
  have hid : inner.read Attr.asU32 GroupKind.id = .ok g.2 :=
    read_of_first? hreads rfl fun a ha => ha.asU32
  unfold decodeGroup
  simp only [hinner, hfirst, hid, bind, Except.bind]
  rfl

/-- Groups with different names are read back in the order they were written. -/
theorem decodeGroups_of_reads (hnames : ∀ g ∈ groups, '\x00' ∉ g.1.toList)
    (hdistinct : (groups.map Prod.fst).Nodup) (h : ReadsAll (groupTrees groups) attrs) :
    decodeGroups attrs = .ok groups := by
  have hdecode : ∀ p ∈ groups.zipIdx, ∀ a, Reads (groupTree p.1 p.2) a → decodeGroup a = .ok p.1 := by
    intro p hp a ha
    exact decodeGroup_of_reads (hnames p.1 (List.fst_mem_of_mem_zipIdx hp)) ha
  rw [groupTrees_eq] at h
  have hall := mapM_map_of_readsAll Prod.fst hdecode h
  rw [List.zipIdx_map_fst] at hall
  have hkept : groups.foldl (fun known g => insertGroup known g.1 g.2) [] = [] ++ groups :=
    foldl_insertGroup hdistinct
  unfold decodeGroups
  simp only [hall, bind, Except.bind, hkept]
  rfl

/-- All groups are told apart by their names, and no name holds the zero character that closes it. -/
structure Representable (f : Family) : Prop where
  distinct : (f.groups.map Prod.fst).Nodup
  name : '\x00' ∉ f.name.toList
  groups : ∀ g ∈ f.groups, '\x00' ∉ g.1.toList

/-- Neither does whether it is representable. -/
theorem Representable.withGroups (hf : f.Representable) {written : List (String × UInt32)}
    (horder : written.Perm f.groups) : (f.withGroups written).Representable where
  distinct := (horder.map Prod.fst).nodup_iff.mpr hf.distinct
  name := hf.name
  groups := fun g hg => hf.groups g (horder.mem_iff.mp hg)

/-- A family is read from what stands in place of its description. -/
theorem decodeAttributes_of_reads (hf : f.Representable) (h : ReadsAll f.trees attrs) :
    decodeAttributes attrs = .ok f := by
  have hnameRead : attrs.read Attr.asText FamilyKind.name = .ok f.name :=
    read_of_first? h rfl fun a ha => ha.asText hf.name
  have hid : attrs.read Attr.asU16 FamilyKind.id = .ok f.id :=
    read_of_first? h rfl fun a ha => ha.asU16
  have hversion : attrs.read? Attr.asU32 FamilyKind.version = .ok (some f.version) :=
    read?_of_first? h (o := some f.version) rfl fun w a ha => ha.asU32
  have hheaderSize : attrs.read? Attr.asU32 FamilyKind.headerSize = .ok (some f.headerSize) :=
    read?_of_first? h (o := some f.headerSize) rfl fun w a ha => ha.asU32
  have hmaxAttribute : attrs.read? Attr.asU32 FamilyKind.maxAttribute = .ok (some f.maxAttribute) :=
    read?_of_first? h (o := some f.maxAttribute) rfl fun w a ha => ha.asU32
  unfold decodeAttributes
  -- a family without groups has no attribute for them
  rcases hempty : f.groups with _ | ⟨g, later⟩
  · have hfirst : first? f.trees FamilyKind.groups = none := by
      rw [trees, hempty]
      rfl
    have hgroups : attrs.read? Attr.asNested FamilyKind.groups = .ok none :=
      read?_of_first?_eq_none h hfirst
    simp only [hgroups, hnameRead, hid, hversion, hheaderSize, hmaxAttribute, bind, Except.bind]
    show Except.ok (Family.mk f.name f.id f.version f.headerSize f.maxAttribute []) = .ok f
    rw [← hempty]
  · have hfirst : first? f.trees FamilyKind.groups =
        some (.node FamilyKind.groups (groupTrees f.groups)) := by
      rw [trees, hempty]
      rfl
    obtain ⟨inner, -, hinner, hreads⟩ := read_asNested h hfirst
    have hgroups := decodeGroups_of_reads hf.groups hf.distinct hreads
    simp only [hinner, hgroups, hnameRead, hid, hversion, hheaderSize, hmaxAttribute, bind,
      Except.bind]
    rfl

/-! ## Messages -/

/-- A description as it is sent. -/
def sent (stream : Bytes) (type flags : UInt16) (header : GenericHeader) (seq port : UInt32) : Message :=
  ((Message.generic type flags header stream).withSeq seq).withPort port

/-- Under whatever type, flags, header, number and port a description is sent, the datagram holds one
message and nothing else, and from that message the family is read. -/
def IsReadAs (stream : Bytes) (f : Family) : Prop :=
  ∀ type flags header seq port, ∃ datagram g,
    Datagram.encode (sent stream type flags header seq port) = .ok datagram ∧
      Datagram.messages datagram = ([sent stream type flags header seq port], none) ∧
      decode (sent stream type flags header seq port) = .ok g ∧ g.SameAs f

/-- A family is read back from any message that carries its attributes. -/
theorem decode_sent (hf : f.Representable) {stream : Bytes} (hparse : Attr.parse stream = .ok attrs)
    (hreads : ReadsAll f.trees attrs) (type flags : UInt16) (header : GenericHeader)
    (seq port : UInt32) :
    decode (sent stream type flags header seq port) = .ok f := by
  have hpayload : (sent stream type flags header seq port).payload = header.encode ++ stream := rfl
  unfold decode
  simp only [Message.attributes_of_payload hpayload hparse, bind, Except.bind, Except.mapError,
    decodeAttributes_of_reads hf hreads]

/-- A description is far shorter than what a message can hold. -/
theorem length_sent_lt {stream : Bytes} (hfinish : (body [] f.trees).finish = .ok stream)
    (type flags : UInt16) (header : GenericHeader) (seq port : UInt32) :
    (sent stream type flags header seq port).length < UInt32.size := by
  have hfew : f.trees.length ≤ 6 := by
    rw [trees, List.length_append]
    split_ifs <;> simp
  have haligned : 4 ∣ ([] : Bytes).length := Nat.dvd_zero 4
  have hlength := length_of_finish haligned hfinish
  rw [List.length_nil] at hlength
  show Header.size + (header.encode ++ stream).length < 4294967296
  rw [List.length_append, GenericHeader.length_encode, Header.size, GenericHeader.size]
  omega

/-- A family is described with its groups written in any order. The description is refused as too long
exactly if the family does not fit, and otherwise the family is read from it with the same groups. -/
theorem descriptions_read_back (hf : f.Representable) {written : List (String × UInt32)}
    (horder : written.Perm f.groups) :
    (¬ f.Fits ∧ ∃ type len,
        (body [] (f.withGroups written).trees).finish = .error (.tooLong type len)) ∨
      (f.Fits ∧ ∃ stream,
        (body [] (f.withGroups written).trees).finish = .ok stream ∧ IsReadAs stream f) := by
  have hfits := (refusedAll_trees_iff (f.withGroups written)).trans (fits_withGroups horder)
  rw [refusedAll_eq_nil] at hfits
  have haligned : 4 ∣ ([] : Bytes).length := Nat.dvd_zero 4
  rcases body_finishes haligned (f.withGroups written).trees with
    ⟨hpruned, htoo⟩ | ⟨hwhole, stream, attrs, hfinish, hparse, hreads⟩
  · left
    exact ⟨mt hfits.mpr hpruned, htoo⟩
  · right
    refine ⟨hfits.mp hwhole, stream, hfinish, ?_⟩
    intro type flags header seq port
    have hcomposed : (sent stream type flags header seq port).Composed :=
      .withPort (.withSeq (.generic type flags header stream) seq) port
    have hshort := length_sent_lt hfinish type flags header seq port
    have hdecode := decode_sent (hf.withGroups horder) hparse hreads type flags header seq port
    exact ⟨_, f.withGroups written, Datagram.encode_of_lt hshort,
      Datagram.messages_octets hcomposed hshort, hdecode, sameAs_withGroups hf.distinct horder⟩

/-- A family with three groups, one of them under a name of no octets and one under a name of more octets
than characters. -/
def threeGroups : Family where
  name := "ovs_vport"
  id := 0x1b
  version := 1
  headerSize := 4
  maxAttribute := 8
  groups := [("ovs_vport", 7), ("", 0), ("größe", 0xffffffff)]

theorem descriptions_read_back_threeGroups :
    threeGroups.Representable ∧ threeGroups.groups.reverse.Perm threeGroups.groups ∧
      ∃ stream,
        (body [] (threeGroups.withGroups threeGroups.groups.reverse).trees).finish = .ok stream ∧
          IsReadAs stream threeGroups := by
  have hf : threeGroups.Representable := ⟨by decide, by decide, by decide⟩
  have horder := threeGroups.groups.reverse_perm
  refine ⟨hf, horder, ?_⟩
  rcases descriptions_read_back hf horder with ⟨hlong, -⟩ | ⟨-, hread⟩
  · have hfits : threeGroups.Fits := ⟨by decide, by decide⟩
    exact absurd hfits hlong
  · exact hread

end Family

end Vswitch

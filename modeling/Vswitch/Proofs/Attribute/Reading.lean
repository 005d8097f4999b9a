import Vswitch.Proofs.Attribute.Writer

/-!
# Typed readings of what was written

A reader that finds an attribute in place of a tree sees its kind, and the value of a typed leaf as it
was given. Looking up a kind in a stream finds what stands in place of the first tree of that kind, so
that the look-ups of a decoder are settled by the trees alone.

* `AttrTree.first?`, `AttrTree.rel_attr?`: a look-up in a stream and in the trees;
* `AttrTree.read_of_first?`, `AttrTree.read?_of_first?`: typed look-ups;
* `AttrTree.mapM_map_of_readsAll`: a list written tree by tree and read attribute by attribute;
* `AttrTree.refused_leaf_eq_nil`, `AttrTree.refused_node_eq_nil`: which attributes are written whole;
* `AttrTree.body_finishes`: trees that are written either come back whole or one of them is too long.
-/

namespace Vswitch

namespace AttrTree

section Reading

variable {α : Type} {type wanted : UInt16} {value : Bytes} {tree : AttrTree}
  {trees children : List AttrTree} {a : Attr} {attrs : Attributes}

/-! ## Kinds -/

/-- The kind under which a tree is looked up. -/
def kind : AttrTree → UInt16
  | .leaf type _ => type &&& Attr.kindMask
  | .node type _ => type &&& Attr.kindMask

/-- The flag of a nested stream is none of the bits that name the kind. -/
theorem nestedFlag_or_and_kindMask (type : UInt16) :
    (type ||| Attr.nestedFlag) &&& Attr.kindMask = type &&& Attr.kindMask := by
  have hapart : Attr.nestedFlag.toBitVec &&& Attr.kindMask.toBitVec = 0 := by decide
  rw [← UInt16.toBitVec_inj, UInt16.toBitVec_and, UInt16.toBitVec_or, UInt16.toBitVec_and,
    BitVec.and_or_distrib_right, hapart]
  exact BitVec.or_zero

/-- A leaf is read with its own type and value. -/
theorem reads_leaf : Reads (.leaf type value) a ↔ a = ⟨type, value⟩ := by rw [Reads]

/-- A node is read with the nested flag set and a value that parses into its children. -/
theorem reads_node : Reads (.node type children) a ↔
    a.type = type ||| Attr.nestedFlag ∧
      ∃ attrs, a.asNested = .ok attrs ∧ ReadsAll children attrs := by
  rw [Reads]

/-- The flag bits masked, an attribute has the kind of the tree it was read from. -/
theorem Reads.kind_eq (h : Reads tree a) : a.kind = tree.kind := by
  cases tree with
  | leaf type value =>
    rw [reads_leaf.mp h]
    rfl
  | node type children =>
    obtain ⟨htype, -⟩ := reads_node.mp h
    rw [Attr.kind, htype, nestedFlag_or_and_kindMask]
    rfl

/-! ## Values -/

/-- The fixed-width getter gives a leaf of that width back. -/
theorem Reads.exactly (h : Reads (.leaf type value) a) {width : Nat}
    (hwidth : value.length = width) : a.exactly width = .ok value := by
  rw [reads_leaf.mp h, Attr.exactly, if_pos hwidth]

/-- So does the getter that allows longer values, for a leaf that is not shorter. -/
theorem Reads.atLeast (h : Reads (.leaf type value) a) {width least : Nat}
    (hleast : least ≤ value.length) : a.atLeast width least = .ok value := by
  rw [reads_leaf.mp h, Attr.atLeast, if_neg (Nat.not_lt.mpr hleast)]

theorem Reads.asU8 {w : UInt8} (h : Reads (u8 type w) a) : a.asU8 = .ok w := by
  have hwidth : [w].length = 1 := rfl
  rw [Attr.asU8, h.exactly hwidth]
  rfl

theorem Reads.asU16 {w : UInt16} (h : Reads (u16 type w) a) : a.asU16 = .ok w := by
  rw [Attr.asU16, h.exactly (Bytes.length_le16 w)]
  exact congrArg Except.ok (Bytes.le16At_le16_self w)

theorem Reads.asU32 {w : UInt32} (h : Reads (u32 type w) a) : a.asU32 = .ok w := by
  rw [Attr.asU32, h.exactly (Bytes.length_le32 w)]
  exact congrArg Except.ok (Bytes.le32At_le32_self w)

theorem Reads.asBe16 {w : UInt16} (h : Reads (be16 type w) a) : a.asBe16 = .ok w := by
  rw [Attr.asBe16, h.exactly (Bytes.length_be16 w)]
  exact congrArg Except.ok (Bytes.be16At_be16_self w)

theorem Reads.asBe64 {w : UInt64} (h : Reads (be64 type w) a) : a.asBe64 = .ok w := by
  rw [Attr.asBe64, h.exactly (Bytes.length_be64 w)]
  exact congrArg Except.ok (Bytes.ofBigEndian_be64 w)

theorem Reads.asIpv4 {ip : Ipv4Addr} (h : Reads (ipv4 type ip) a) : a.asIpv4 = .ok ip := by
  rw [Attr.asIpv4, h.exactly (Ipv4Addr.length_octets ip)]
  rfl

/-! ## Look-ups -/

/-- The first tree of a kind. -/
def first? (trees : List AttrTree) (wanted : UInt16) : Option AttrTree :=
  trees.find? (·.kind == wanted)

@[simp] theorem first?_nil (wanted : UInt16) : first? [] wanted = none := rfl

@[simp] theorem first?_cons (tree : AttrTree) (trees : List AttrTree) (wanted : UInt16) :
    first? (tree :: trees) wanted = if tree.kind = wanted then some tree else first? trees wanted := by
  rw [first?, List.find?_cons]
  by_cases h : tree.kind = wanted
  · rw [if_pos h, beq_iff_eq.mpr h]
  · rw [if_neg h, beq_eq_false_iff_ne.mpr h]
    rfl

/-- The first tree of a kind in two lists is that of the front one, if it has any. -/
@[simp] theorem first?_append (trees more : List AttrTree) (wanted : UInt16) :
    first? (trees ++ more) wanted = (first? trees wanted).or (first? more wanted) :=
  List.find?_append

/-- A tree that is written if there is a value for it. -/
theorem first?_optional {leaf : α → AttrTree} {own : UInt16} (hkind : ∀ x, (leaf x).kind = own)
    (o : Option α) (wanted : UInt16) :
    first? (o.map leaf).toList wanted = if own = wanted then o.map leaf else none := by
  cases o with
  | none => simp
  | some x => simp [hkind x]

/-- A tree that is written if a condition holds. -/
theorem first?_conditional (condition : Bool) (tree : AttrTree) (wanted : UInt16) :
    first? (if condition then [tree] else []) wanted =
      if tree.kind = wanted ∧ condition = true then some tree else none := by
  cases condition <;> simp

/-- A look-up in the stream finds what stands in place of the first tree of the kind. -/
theorem rel_attr? (h : ReadsAll trees attrs) (wanted : UInt16) :
    Option.Rel Reads (first? trees wanted) (attrs.attr? wanted) := by
  induction trees generalizing attrs with
  | nil =>
    rw [ReadsAll] at h
    rw [h]
    exact .none
  | cons tree rest ih =>
    rw [ReadsAll] at h
    obtain ⟨a, later, rfl, htree, hrest⟩ := h
    -- both look-ups stop at the front, or neither does
    have hsame : a.kind = tree.kind := htree.kind_eq
    rw [first?_cons, Attributes.attr?, List.find?_cons, hsame]
    by_cases hkind : tree.kind = wanted
    · rw [if_pos hkind, beq_iff_eq.mpr hkind]
      exact .some htree
    · rw [if_neg hkind, beq_eq_false_iff_ne.mpr hkind]
      exact ih hrest

/-- A kind no tree has is not found among the attributes. -/
theorem attr?_eq_none (h : ReadsAll trees attrs) (hfirst : first? trees wanted = none) :
    attrs.attr? wanted = none := by
  have hrel := rel_attr? h wanted
  rw [hfirst] at hrel
  generalize attrs.attr? wanted = found at hrel ⊢
  cases hrel
  rfl

/-- The attribute found for a kind was read from the first tree of that kind. -/
theorem attr?_eq_some (h : ReadsAll trees attrs) (hfirst : first? trees wanted = some tree) :
    ∃ a, attrs.attr? wanted = some a ∧ Reads tree a := by
  have hrel := rel_attr? h wanted
  rw [hfirst] at hrel
  generalize attrs.attr? wanted = found at hrel ⊢
  cases hrel with
  | some hreads => exact ⟨_, rfl, hreads⟩

/-- An attribute is present just if a tree of its kind was written. -/
theorem has_eq (h : ReadsAll trees attrs) (wanted : UInt16) :
    attrs.has wanted = (first? trees wanted).isSome := by
  unfold Attributes.has
  cases hfirst : first? trees wanted with
  | none =>
    rw [attr?_eq_none h hfirst]
    rfl
  | some tree =>
    obtain ⟨a, ha, -⟩ := attr?_eq_some h hfirst
    rw [ha]
    rfl

/-- The value found for a kind is that of the first leaf of the kind. -/
theorem value?_of_first? (h : ReadsAll trees attrs) {o : Option Bytes}
    (hfirst : first? trees wanted = o.map (.leaf type)) : attrs.value? wanted = o := by
  unfold Attributes.value?
  cases o with
  | none =>
    rw [attr?_eq_none h hfirst]
    rfl
  | some value =>
    obtain ⟨a, ha, hreads⟩ := attr?_eq_some h hfirst
    rw [ha, reads_leaf.mp hreads]
    rfl

section Typed

variable {as : Attr → Except AttrError α}

/-- A getter that reads the first tree of a kind gives the same value from the whole list. -/
theorem read_of_first? (h : ReadsAll trees attrs) (hfirst : first? trees wanted = some tree) {x : α}
    (has : ∀ a, Reads tree a → as a = .ok x) : attrs.read as wanted = .ok x := by
  obtain ⟨a, ha, hreads⟩ := attr?_eq_some h hfirst
  rw [Attributes.read, Attributes.require, ha]
  exact has a hreads

/-- So does the optional one, an absent tree being `none`. -/
theorem read?_of_first? (h : ReadsAll trees attrs) {leaf : α → AttrTree} {o : Option α}
    (hfirst : first? trees wanted = o.map leaf) (has : ∀ x a, Reads (leaf x) a → as a = .ok x) :
    attrs.read? as wanted = .ok o := by
  unfold Attributes.read?
  cases o with
  | none => rw [attr?_eq_none h hfirst]
  | some x =>
    obtain ⟨a, ha, hreads⟩ := attr?_eq_some h hfirst
    rw [ha]
    exact congrArg (Except.map some) (has x a hreads)

/-- The optional getter succeeds without a value where no tree has the kind. -/
theorem read?_of_first?_eq_none (h : ReadsAll trees attrs) (hfirst : first? trees wanted = none) :
    attrs.read? as wanted = .ok none := by
  rw [Attributes.read?, attr?_eq_none h hfirst]

end Typed

/-- The stream that is nested under a kind has the children of the first node of the kind. -/
theorem read_asNested (h : ReadsAll trees attrs)
    (hfirst : first? trees wanted = some (.node type children)) :
    ∃ inner, attrs.read Attr.asNested wanted = .ok inner ∧
      attrs.read? Attr.asNested wanted = .ok (some inner) ∧ ReadsAll children inner := by
  obtain ⟨a, ha, hreads⟩ := attr?_eq_some h hfirst
  obtain ⟨-, inner, hinner, hchildren⟩ := reads_node.mp hreads
  refine ⟨inner, ?_, ?_, hchildren⟩
  · rw [Attributes.read, Attributes.require, ha]
    exact hinner
  · rw [Attributes.read?, ha]
    exact congrArg (Except.map some) hinner

/-- A list that is written tree by tree is read back attribute by attribute, as far as one attribute is
what is read of one element. -/
theorem mapM_map_of_readsAll {β : Type} {toTree : α → AttrTree} {decode : Attr → Except AttrError β}
    (value : α → β) {xs : List α}
    (hdecode : ∀ x ∈ xs, ∀ a, Reads (toTree x) a → decode a = .ok (value x))
    (h : ReadsAll (xs.map toTree) attrs) : attrs.mapM decode = .ok (xs.map value) := by
  induction xs generalizing attrs with
  | nil =>
    rw [List.map_nil, ReadsAll] at h
    rw [h]
    rfl
  | cons x rest ih =>
    rw [List.map_cons, ReadsAll] at h
    obtain ⟨a, later, rfl, hfirst, hlater⟩ := h
    have hx : decode a = .ok (value x) := hdecode x List.mem_cons_self a hfirst
    have hrest : later.mapM decode = .ok (rest.map value) :=
      ih (fun y hy => hdecode y (List.mem_cons_of_mem x hy)) hlater
    rw [List.mapM_cons, hx]
    simp only [bind, Except.bind, hrest]
    rfl

/-- A list of values, each read as it was written. -/
theorem mapM_of_readsAll {toTree : α → AttrTree} {decode : Attr → Except AttrError α} {xs : List α}
    (hdecode : ∀ x ∈ xs, ∀ a, Reads (toTree x) a → decode a = .ok x)
    (h : ReadsAll (xs.map toTree) attrs) : attrs.mapM decode = .ok xs := by
  have hmap := mapM_map_of_readsAll id hdecode h
  rwa [List.map_id] at hmap

end Reading

/-! ## Written whole, or too long -/

mutual

/-- A tree is refused for nothing but a value past the length field. -/
theorem refused_tooLong : (tree : AttrTree) → (error : AttrError) → error ∈ refused tree →
    ∃ type len, error = .tooLong type len
  | .leaf type value, error, herror => by
    rw [refused] at herror
    split at herror
    · exact ⟨_, _, List.mem_singleton.mp herror⟩
    · contradiction
  | .node type children, error, herror => by
    rw [refused, List.mem_append] at herror
    cases herror with
    | inl hchild => exact refusedAll_tooLong children error hchild
    | inr hown =>
      split at hown
      · exact ⟨_, _, List.mem_singleton.mp hown⟩
      · contradiction

/-- Nor is a list of trees. -/
theorem refusedAll_tooLong : (trees : List AttrTree) → (error : AttrError) →
    error ∈ refusedAll trees → ∃ type len, error = .tooLong type len
  | [], _, herror => by
    rw [refusedAll] at herror
    contradiction
  | tree :: rest, error, herror => by
    rw [refusedAll, List.mem_append] at herror
    cases herror with
    | inl hfirst => exact refused_tooLong tree error hfirst
    | inr hrest => exact refusedAll_tooLong rest error hrest

end

section Refused

variable {type : UInt16} {value : Bytes} {trees : List AttrTree}

/-- An error of a list is an error of one of its trees. -/
theorem mem_refusedAll {error : AttrError} :
    error ∈ refusedAll trees ↔ ∃ tree ∈ trees, error ∈ refused tree := by
  induction trees with
  | nil => simp [refusedAll]
  | cons tree rest ih => simp [refusedAll, ih]

/-- Several trees are written whole if each of them is. -/
theorem refusedAll_eq_nil_iff : refusedAll trees = [] ↔ ∀ tree ∈ trees, refused tree = [] := by
  simp only [List.eq_nil_iff_forall_not_mem, mem_refusedAll]
  constructor
  · intro h tree htree error herror
    exact h error ⟨tree, htree, herror⟩
  · rintro h error ⟨tree, htree, herror⟩
    exact h tree htree error herror

/-- A leaf is accepted up to the largest value a 16-bit length counts with its header. -/
theorem refused_leaf_eq_nil : refused (.leaf type value) = [] ↔ value.length ≤ 65531 := by
  rw [refused]
  split_ifs with hlong
  · simp [hlong]
  · simp [Nat.le_of_not_lt hlong]

/-- A node is written whole if its children are and they fit behind its header. -/
theorem refused_node_eq_nil :
    refused (.node type trees) = [] ↔ refusedAll trees = [] ∧ 4 + sizeAll trees ≤ 65535 := by
  rw [refused, List.append_eq_nil_iff]
  constructor
  · rintro ⟨hchildren, hnode⟩
    rw [(refusedAll_eq_nil trees).mp hchildren, size] at hnode
    refine ⟨hchildren, ?_⟩
    by_contra hlong
    rw [if_pos (Nat.lt_of_not_le hlong)] at hnode
    cases hnode
  · rintro ⟨hchildren, hfits⟩
    rw [(refusedAll_eq_nil trees).mp hchildren, size, if_neg (Nat.not_lt.mpr hfits)]
    exact ⟨hchildren, rfl⟩

/-- The size of a list is the sum of its trees' padded sizes. -/
theorem sizeAll_eq_sum (trees : List AttrTree) :
    sizeAll trees = (trees.map fun tree => Bytes.align4 (size tree)).sum := by
  induction trees with
  | nil => rfl
  | cons tree rest ih => rw [sizeAll, ih, List.map_cons, List.sum_cons]

end Refused

/-- A body is the header and the encodings of what pruning leaves, with the error of the first tree
pruned. -/
theorem body_eq {header : Bytes} (haligned : 4 ∣ header.length) (trees : List AttrTree) :
    body header trees = ⟨header ++ encodingAll (pruneAll trees), (refusedAll trees).head?⟩ :=
  writeAll_eq trees (Written.onto header) haligned

/-- However much is written behind a header, the result is bounded by the number of trees. -/
theorem length_of_finish {header bytes : Bytes} (haligned : 4 ∣ header.length)
    {trees : List AttrTree} (h : (body header trees).finish = .ok bytes) :
    bytes.length ≤ header.length + 65536 * trees.length := by
  have hbytes : bytes = header ++ encodingAll (pruneAll trees) := by
    rw [body_eq haligned] at h
    unfold Written.finish at h
    split at h
    · exact (Except.ok.inj h).symm
    · contradiction
  have hle := sizeAll_pruneAll_le trees
  rw [hbytes, List.length_append, length_encodingAll]
  omega

/-- Trees written behind a header either come back whole or are refused for the length of one. -/
theorem body_finishes {header : Bytes} (haligned : 4 ∣ header.length) (trees : List AttrTree) :
    (pruneAll trees ≠ trees ∧
        ∃ type len, (body header trees).finish = .error (.tooLong type len)) ∨
      (pruneAll trees = trees ∧ ∃ stream attrs, (body header trees).finish = .ok (header ++ stream) ∧
        Attr.parse stream = .ok attrs ∧ ReadsAll trees attrs) := by
  rw [body_eq haligned, Ne, ← refusedAll_eq_nil]
  cases hrefused : refusedAll trees with
  | nil =>
    -- nothing is refused, so what the reader finds of the pruned trees it finds of all
    right
    obtain ⟨attrs, hparse, hreads⟩ := parse_encodingAll trees
    rw [(refusedAll_eq_nil trees).mp hrefused] at hparse hreads ⊢
    exact ⟨rfl, encodingAll trees, attrs, rfl, hparse, hreads⟩
  | cons error rest =>
    -- the first refusal is what the writer reports
    left
    have hmem : error ∈ refusedAll trees := by
      rw [hrefused]
      exact List.mem_cons_self
    obtain ⟨type, len, rfl⟩ := refusedAll_tooLong trees error hmem
    exact ⟨List.cons_ne_nil _ _, type, len, rfl⟩

end AttrTree

end Vswitch

import Mathlib
import Vswitch.Attribute.Tree
import Vswitch.Attribute.Value
import Vswitch.Proofs.Bytes

/-!
# Writing and reading attribute trees

A buffer that ends at a multiple of four, and any trees written to it. What arrives is the trees
without those attributes that exceed a 16-bit length, counted from the leaves up; reading the stream
and the nested streams gives exactly them back.

* `AttrTree.prune`, `AttrTree.refused`: what is left of a tree, and what is left out of it;
* `AttrTree.write_eq`, `AttrTree.writeAll_eq`: the writer appends the encoding of what is left;
* `AttrTree.Reads`: a tree and the attribute that a reader finds in its place;
* `AttrTree.body_reads_pruned`: writing and reading agree on all trees.
-/

namespace Vswitch

namespace AttrTree

/-! ## What is left of a tree -/

mutual

/-- Octets of an attribute with its header, without the padding behind it. -/
def size : AttrTree → Nat
  | .leaf _ value => 4 + value.length
  | .node _ children => 4 + sizeAll children

/-- Octets of several attributes, each with its padding. -/
def sizeAll : List AttrTree → Nat
  | [] => 0
  | tree :: rest => Bytes.align4 (size tree) + sizeAll rest

end

mutual

/-- The tree without the attributes that are too long: leaves of more than 65531 octets, and nodes
of more than 65535 octets once their children are pruned. -/
def prune : AttrTree → Option AttrTree
  | .leaf type value => if 65531 < value.length then none else some (.leaf type value)
  | .node type children =>
    if 65535 < size (.node type (pruneAll children)) then none
    else some (.node type (pruneAll children))

/-- Several trees without the attributes that are too long. -/
def pruneAll : List AttrTree → List AttrTree
  | [] => []
  | tree :: rest => (prune tree).toList ++ pruneAll rest

end

mutual

/-- The attributes that are left out, each with the length that it needs, in the order in which they
are complete: children before their parent. -/
def refused : AttrTree → List AttrError
  | .leaf type value => if 65531 < value.length then [.tooLong type (4 + value.length)] else []
  | .node type children =>
    refusedAll children ++
      if 65535 < size (.node type (pruneAll children)) then
        [.tooLong type (size (.node type (pruneAll children)))]
      else []

/-- The attributes that are left out of several trees. -/
def refusedAll : List AttrTree → List AttrError
  | [] => []
  | tree :: rest => refused tree ++ refusedAll rest

end

/-- Pruning leaves no more trees than there were. -/
theorem length_pruneAll_le (trees : List AttrTree) : (pruneAll trees).length ≤ trees.length := by
  induction trees with
  | nil => simp [pruneAll]
  | cons tree rest ih =>
    rw [pruneAll, List.length_append, List.length_cons]
    cases prune tree <;> simp <;> omega

mutual

/-- A tree is left as it is exactly if nothing is left out of it. -/
theorem refused_eq_nil : (tree : AttrTree) → (refused tree = [] ↔ prune tree = some tree)
  | .leaf type value => by
    by_cases h : 65531 < value.length <;> simp [refused, prune, h]
  | .node type children => by
    have hchildren := refusedAll_eq_nil children
    by_cases h : 65535 < size (.node type (pruneAll children)) <;>
      simp [refused, prune, h, hchildren]

theorem refusedAll_eq_nil : (trees : List AttrTree) →
    (refusedAll trees = [] ↔ pruneAll trees = trees)
  | [] => by simp [refusedAll, pruneAll]
  | tree :: rest => by
    have htree := refused_eq_nil tree
    have hrest := refusedAll_eq_nil rest
    rw [refusedAll, pruneAll, List.append_eq_nil_iff, htree, hrest]
    constructor
    · rintro ⟨hsome, hall⟩
      rw [hsome, hall]
      rfl
    · intro heq
      cases hprune : prune tree with
      | none =>
        -- the rest alone would be as long as the whole
        have hle := length_pruneAll_le rest
        rw [hprune] at heq
        have hlength := congrArg List.length heq
        simp at hlength
        omega
      | some left =>
        rw [hprune] at heq
        simpa using heq

end

/-! ## Encodings -/

mutual

/-- The octets of an attribute, its padding included. -/
def encoding : AttrTree → Bytes
  | .leaf type value =>
    Bytes.le16 (UInt16.ofNat (4 + value.length)) ++ (Bytes.le16 type ++ (value ++
      Bytes.zeros (Bytes.align4 (4 + value.length) - (4 + value.length))))
  | .node type children =>
    Bytes.le16 (UInt16.ofNat (4 + sizeAll children)) ++ (Bytes.le16 (type ||| Attr.nestedFlag) ++
      encodingAll children)

/-- The octets of several attributes. -/
def encodingAll : List AttrTree → Bytes
  | [] => []
  | tree :: rest => encoding tree ++ encodingAll rest

end

/-- Lists are encoded one after another. -/
theorem encodingAll_append (trees more : List AttrTree) :
    encodingAll (trees ++ more) = encodingAll trees ++ encodingAll more := by
  induction trees with
  | nil => rfl
  | cons tree rest ih => rw [List.cons_append, encodingAll, encodingAll, ih, List.append_assoc]

/-- Every tree is padded, and so the size of a list is a multiple of four. -/
theorem dvd_sizeAll (trees : List AttrTree) : 4 ∣ sizeAll trees := by
  induction trees with
  | nil => simp [sizeAll]
  | cons tree rest ih =>
    rw [sizeAll]
    exact Nat.dvd_add (Bytes.dvd_align4 _) ih

mutual

theorem length_encoding : (tree : AttrTree) → (encoding tree).length = Bytes.align4 (size tree)
  | .leaf type value => by
    have hle := Bytes.le_align4 (4 + value.length)
    simp only [encoding, size, List.length_append, Bytes.length_le16, Bytes.length_zeros]
    omega
  | .node type children => by
    have haligned : 4 ∣ 4 + sizeAll children := Nat.dvd_add (Nat.dvd_refl 4) (dvd_sizeAll children)
    simp only [encoding, size, List.length_append, Bytes.length_le16, length_encodingAll children,
      Bytes.align4_of_dvd haligned]
    omega

theorem length_encodingAll : (trees : List AttrTree) → (encodingAll trees).length = sizeAll trees
  | [] => rfl
  | tree :: rest => by
    rw [encodingAll, sizeAll, List.length_append, length_encoding tree, length_encodingAll rest]

end

/-- What is left of a tree fits its length field. -/
theorem size_le_of_prune {tree left : AttrTree} (h : prune tree = some left) :
    size left ≤ 65535 := by
  cases tree with
  | leaf type value =>
    rw [prune] at h
    split_ifs at h with hlong
    cases h
    rw [size]
    omega
  | node type children =>
    rw [prune] at h
    split_ifs at h with hlong
    cases h
    omega

/-- However much is written, what is left of it is bounded by the number of trees. -/
theorem sizeAll_pruneAll_le (trees : List AttrTree) :
    sizeAll (pruneAll trees) ≤ 65536 * trees.length := by
  induction trees with
  | nil => exact Nat.zero_le _
  | cons tree rest ih =>
    rw [pruneAll, List.length_cons]
    cases hleft : prune tree with
    | none =>
      show sizeAll (pruneAll rest) ≤ 65536 * (rest.length + 1)
      omega
    | some left =>
      have hsize : size left ≤ 65535 := size_le_of_prune hleft
      show Bytes.align4 (size left) + sizeAll (pruneAll rest) ≤ 65536 * (rest.length + 1)
      unfold Bytes.align4
      omega

/-! ## The writer appends the encoding of what is left -/

section Writer

variable {w : Written} {type : UInt16}

/-- Padding is counted from the front of the buffer. -/
theorem bytes_pad (data : Bytes) (failure : Option AttrError) :
    (Written.mk data failure).pad =
      ⟨data ++ Bytes.zeros (Bytes.align4 data.length - data.length), failure⟩ := rfl

/-- An attribute is either appended with its padding or refused, the buffer staying as it is. -/
theorem put_eq (haligned : 4 ∣ w.bytes.length) (type : UInt16) (value : Bytes) :
    w.put type value =
      if 65531 < value.length then ⟨w.bytes, w.failure <|> some (.tooLong type (4 + value.length))⟩
      else ⟨w.bytes ++ encoding (.leaf type value), w.failure⟩ := by
  by_cases hlong : 65531 < value.length
  · have hrefused : ¬ Attr.headerLength + value.length ≤ Written.maxLength := by
      simp only [Attr.headerLength, Written.maxLength]
      omega
    rw [if_pos hlong, Written.put]
    simp only [hrefused, if_false]
    rfl
  · have hfits : Attr.headerLength + value.length ≤ Written.maxLength := by
      simp only [Attr.headerLength, Written.maxLength]
      omega
    rw [if_neg hlong, Written.put]
    simp only [hfits, if_true, Written.append, bytes_pad, encoding, List.append_assoc]
    have hlength : (w.bytes ++ (Bytes.le16 (UInt16.ofNat (Attr.headerLength + value.length)) ++
        (Bytes.le16 type ++ value))).length = w.bytes.length + (4 + value.length) := by
      simp only [List.length_append, Bytes.length_le16]
      omega
    rw [hlength, Bytes.align4_add haligned, Nat.add_sub_add_left]
    rfl

/-- Closing a node behind whose header `content` has been written. -/
theorem closeNode_eq {content : Bytes} (haligned : 4 ∣ w.bytes.length)
    (hcontent : 4 ∣ content.length)
    (type : UInt16) (failure : Option AttrError) :
    Written.closeNode ⟨(w.openNode type).bytes ++ content, failure⟩ type w.bytes.length =
      if 65535 < 4 + content.length then
        ⟨w.bytes, failure <|> some (.tooLong type (4 + content.length))⟩
      else
        ⟨w.bytes ++ (Bytes.le16 (UInt16.ofNat (4 + content.length)) ++
          (Bytes.le16 (type ||| Attr.nestedFlag) ++ content)), failure⟩ := by
  have hopen : (w.openNode type).bytes ++ content =
      w.bytes ++ (Bytes.le16 0 ++ (Bytes.le16 (type ||| Attr.nestedFlag) ++ content)) := by
    simp [Written.openNode, Written.append]
  have hlength :
      ((w.openNode type).bytes ++ content).length - w.bytes.length = 4 + content.length := by
    rw [hopen]
    simp only [List.length_append, Bytes.length_le16]
    omega
  rw [Written.closeNode]
  simp only [hlength, Written.maxLength]
  by_cases hlong : 65535 < 4 + content.length
  · rw [if_neg (by omega), if_pos hlong, hopen, List.take_left]
    rfl
  · have hfield : (Bytes.le16 (UInt16.ofNat (4 + content.length))).length = (Bytes.le16 0).length :=
      rfl
    rw [if_pos (by omega), if_neg hlong, hopen, Bytes.overwrite_append rfl hfield, bytes_pad]
    -- the content ends aligned, so nothing is padded
    have hpadded : 4 ∣ (w.bytes ++ (Bytes.le16 (UInt16.ofNat (4 + content.length)) ++
        (Bytes.le16 (type ||| Attr.nestedFlag) ++ content))).length := by
      simp only [List.length_append, Bytes.length_le16]
      omega
    rw [Bytes.align4_of_dvd hpadded, Nat.sub_self]
    simp [Bytes.zeros]

end Writer

mutual

theorem write_eq : (tree : AttrTree) → (w : Written) → 4 ∣ w.bytes.length →
    write w tree =
      ⟨w.bytes ++ encodingAll (prune tree).toList, w.failure <|> (refused tree).head?⟩
  | .leaf type value, w, haligned => by
    rw [write, put_eq haligned, prune, refused]
    by_cases hlong : 65531 < value.length
    · simp [hlong, encodingAll]
    · simp [hlong, encodingAll]
  | .node type children, w, haligned => by
    have hopen : 4 ∣ (Written.onto (w.openNode type).bytes).bytes.length := by
      simp only [Written.onto, Written.openNode, Written.append, List.length_append,
        Bytes.length_le16]
      omega
    have hcontent : 4 ∣ (encodingAll (pruneAll children)).length := by
      rw [length_encodingAll]
      exact dvd_sizeAll _
    rw [write, writeAll_eq children _ hopen]
    have hclose := closeNode_eq haligned hcontent type (w.failure <|> (refusedAll children).head?)
    rw [length_encodingAll] at hclose
    rw [prune, refused, size]
    -- the children report to a writer of their own, whose first failure is passed on
    have hfresh : (none <|> (refusedAll children).head?) = (refusedAll children).head? := rfl
    simp only [Written.onto, Written.fail, hfresh]
    rw [hclose]
    by_cases hlong : 65535 < 4 + sizeAll (pruneAll children)
    · rw [if_pos hlong, if_pos hlong, if_pos hlong]
      cases refusedAll children <;> cases w.failure <;> simp [encodingAll]
    · rw [if_neg hlong, if_neg hlong, if_neg hlong]
      simp [encodingAll, encoding]

theorem writeAll_eq : (trees : List AttrTree) → (w : Written) → 4 ∣ w.bytes.length →
    writeAll w trees =
      ⟨w.bytes ++ encodingAll (pruneAll trees), w.failure <|> (refusedAll trees).head?⟩
  | [], w, _ => by
    rw [writeAll, pruneAll, refusedAll, encodingAll, List.append_nil]
    cases hfailure : w.failure <;> simp [← hfailure]
  | tree :: rest, w, haligned => by
    have haligned' : 4 ∣ (w.bytes ++ encodingAll (prune tree).toList).length := by
      rw [List.length_append, length_encodingAll]
      exact Nat.dvd_add haligned (dvd_sizeAll _)
    rw [writeAll, write_eq tree w haligned, writeAll_eq rest _ haligned', pruneAll, refusedAll]
    simp only [encodingAll_append, List.append_assoc]
    cases w.failure <;> cases refused tree <;> simp

end

/-! ## Reading the encoding back -/

mutual

/-- The attribute that a reader finds in place of a tree: a leaf with its type and value, a node
with the nested flag and a nested stream of its children. -/
def Reads : AttrTree → Attr → Prop
  | .leaf type value, a => a = ⟨type, value⟩
  | .node type children, a =>
    a.type = type ||| Attr.nestedFlag ∧ ∃ attrs, a.asNested = .ok attrs ∧ ReadsAll children attrs

/-- The attributes that a reader finds in place of several trees, in order. -/
def ReadsAll : List AttrTree → Attributes → Prop
  | [], attrs => attrs = []
  | tree :: rest, attrs => ∃ a later, attrs = a :: later ∧ Reads tree a ∧ ReadsAll rest later

end

/-- An attribute at the front of a stream. The reader goes on from where the next one is aligned,
whatever stands in between. -/
theorem parse_front (type : UInt16) {value : Bytes} (hfits : 4 + value.length ≤ 65535)
    (behind : Bytes) :
    Attr.parse (Bytes.le16 (UInt16.ofNat (4 + value.length)) ++ (Bytes.le16 type ++
        (value ++ behind))) =
      (Attr.parse (behind.drop (Bytes.align4 (4 + value.length) - (4 + value.length)))).map
        (⟨type, value⟩ :: ·) := by
  have hdeclared : (UInt16.ofNat (4 + value.length)).toNat = 4 + value.length := by
    rw [UInt16.toNat_ofNat']
    exact Nat.mod_eq_of_lt (by omega)
  -- the reader sees the declared length, the type and the value, each at its place in `data`
  generalize hlen : UInt16.ofNat (4 + value.length) = len at hdeclared
  generalize hdata : Bytes.le16 len ++ (Bytes.le16 type ++ (value ++ behind)) = data
  have hlength : data.length = 4 + value.length + behind.length := by
    rw [← hdata]
    simp only [List.length_append, Bytes.length_le16]
    omega
  have hnonempty : data ≠ [] := by
    intro hnil
    rw [hnil, List.length_nil] at hlength
    omega
  have hword : data.le16At 0 = len := by
    rw [← hdata]
    exact Bytes.le16At_le16 len _
  have htype : data.le16At 2 = type := by
    rw [← hdata, Bytes.le16At_append_right (by simp)]
    exact Bytes.le16At_le16 type _
  have hvalue : data.slice 4 value.length = value := by
    rw [← hdata, Bytes.slice_append_right (by simp), Bytes.slice_append_right (by simp)]
    exact Bytes.slice_front rfl
  have hdrop : data.drop (Bytes.align4 (4 + value.length)) =
      behind.drop (Bytes.align4 (4 + value.length) - (4 + value.length)) := by
    have hfront : (Bytes.le16 len ++ (Bytes.le16 type ++ value)).length = 4 + value.length := by
      simp only [List.length_append, Bytes.length_le16]
      omega
    have hbehind : data = (Bytes.le16 len ++ (Bytes.le16 type ++ value)) ++ behind := by
      simp [← hdata]
    rw [hbehind, Bytes.drop_append_right (hfront.trans_le (Bytes.le_align4 _)), hfront]
  rw [Attr.parse, if_neg hnonempty]
  simp only [hword, htype, hdeclared, Bytes.covers_iff, Attr.headerLength]
  rw [if_neg (by omega), if_neg (by omega), if_neg (by omega), Nat.add_sub_cancel_left, hvalue,
    hdrop]
  rfl

/-- An attribute at the front of a stream, with the zeros that align what follows it. -/
theorem parse_attr (type : UInt16) {value rest : Bytes} {attrs : Attributes} (padding : Nat)
    (hfits : 4 + value.length ≤ 65535)
    (hpadding : 4 + value.length + padding = Bytes.align4 (4 + value.length))
    (hrest : Attr.parse rest = .ok attrs) :
    Attr.parse (Bytes.le16 (UInt16.ofNat (4 + value.length)) ++ (Bytes.le16 type ++
      (value ++ (Bytes.zeros padding ++ rest)))) = .ok (⟨type, value⟩ :: attrs) := by
  have hzeros : (Bytes.zeros padding).length =
      Bytes.align4 (4 + value.length) - (4 + value.length) := by
    rw [Bytes.length_zeros]
    omega
  rw [parse_front type hfits, List.drop_left' hzeros, hrest]
  rfl

mutual

/-- What is left of a tree is read back from the front of its encoding. -/
theorem parse_encoding : (tree left : AttrTree) → (rest : Bytes) → (attrs : Attributes) →
    prune tree = some left → Attr.parse rest = .ok attrs →
      ∃ a, Attr.parse (encoding left ++ rest) = .ok (a :: attrs) ∧ Reads left a
  | .leaf type value, left, rest, attrs, hleft, hrest => by
    rw [prune] at hleft
    split_ifs at hleft with hlong
    cases hleft
    have hle := Bytes.le_align4 (4 + value.length)
    refine ⟨⟨type, value⟩, ?_, rfl⟩
    simp only [encoding, List.append_assoc]
    exact parse_attr type _ (by omega) (by omega) hrest
  | .node type children, left, rest, attrs, hleft, hrest => by
    rw [prune] at hleft
    split_ifs at hleft with hlong
    cases hleft
    -- the children are the value, which ends aligned and takes no padding
    rcases parse_encodingAll children with ⟨inner, hinner, hreads⟩
    have hlength := length_encodingAll (pruneAll children)
    rw [size] at hlong
    have haligned : 4 ∣ 4 + (encodingAll (pruneAll children)).length := by
      rw [hlength]
      exact Nat.dvd_add (Nat.dvd_refl 4) (dvd_sizeAll _)
    refine ⟨⟨type ||| Attr.nestedFlag, encodingAll (pruneAll children)⟩, ?_, rfl, inner, hinner,
      hreads⟩
    have hparse := parse_attr (type ||| Attr.nestedFlag) 0 (by omega)
      (Bytes.align4_of_dvd haligned).symm hrest
    simpa [encoding, hlength, Bytes.zeros] using hparse

theorem parse_encodingAll : (trees : List AttrTree) →
    ∃ attrs, Attr.parse (encodingAll (pruneAll trees)) = .ok attrs ∧ ReadsAll (pruneAll trees) attrs
  | [] => ⟨[], by rw [Attr.parse]; rfl, rfl⟩
  | tree :: rest => by
    rcases parse_encodingAll rest with ⟨attrs, hparse, hreads⟩
    rw [pruneAll]
    rcases hleft : prune tree with _ | left
    · exact ⟨attrs, hparse, hreads⟩
    · rcases parse_encoding tree left _ attrs hleft hparse with ⟨a, hfirst, hread⟩
      exact ⟨a :: attrs, hfirst, a, attrs, rfl, hread, hreads⟩

end

/-! ## Writing and reading agree -/

/-- The bytes are handed out just if nothing was refused. -/
theorem finish_eq_ok {w : Written} : (∃ bytes, w.finish = .ok bytes) ↔ w.failure = none := by
  rcases w with ⟨bytes, _ | failure⟩ <;> simp [Written.finish]

/-- Else the first refusal is. -/
theorem finish_eq_error {w : Written} {error : AttrError} :
    w.finish = .error error ↔ w.failure = some error := by
  rcases w with ⟨bytes, _ | failure⟩ <;> simp [Written.finish]

/-- Trees written to a buffer that ends at a multiple of four leave the buffer in place and keep it
aligned. Read back, level by level, they are the pruned trees. The writer succeeds exactly if
nothing was pruned, and reports the first attribute that was. -/
theorem body_reads_pruned {header : Bytes} (haligned : 4 ∣ header.length) (trees : List AttrTree) :
    (body header trees).bytes.take header.length = header ∧
      4 ∣ (body header trees).bytes.length ∧
      (∃ attrs, Attr.parse ((body header trees).bytes.drop header.length) = .ok attrs ∧
        ReadsAll (pruneAll trees) attrs) ∧
      ((∃ bytes, (body header trees).finish = .ok bytes) ↔ pruneAll trees = trees) ∧
      ∀ error,
        (body header trees).finish = .error error ↔ (refusedAll trees).head? = some error := by
  have hbody : body header trees =
      ⟨header ++ encodingAll (pruneAll trees), (refusedAll trees).head?⟩ :=
    writeAll_eq trees (Written.onto header) haligned
  rw [hbody]
  refine ⟨List.take_left, ?_, ?_, ?_, ?_⟩
  · rw [List.length_append, length_encodingAll]
    exact Nat.dvd_add haligned (dvd_sizeAll _)
  · rw [List.drop_left]
    exact parse_encodingAll trees
  · rw [finish_eq_ok, List.head?_eq_none_iff, refusedAll_eq_nil]
  · intro error
    exact finish_eq_error

/-- A leaf that is one octet too long, inside a node that is kept. -/
theorem body_reads_pruned_oversized :
    4 ∣ (Bytes.le32 7).length ∧
      pruneAll [.node 1 [.leaf 2 (Bytes.zeros 65532), .u8 3 9]] = [.node 1 [.u8 3 9]] ∧
      (body (Bytes.le32 7) [.node 1 [.leaf 2 (Bytes.zeros 65532), .u8 3 9]]).finish =
        .error (.tooLong 2 65536) := by
  have haligned : 4 ∣ (Bytes.le32 7).length := by decide
  -- a comparison to rewrite with: the octets themselves are not to be counted
  have hlong : 65531 < (Bytes.zeros 65532).length := by
    rw [Bytes.length_zeros]
    decide
  have hpruned :
      pruneAll [.node 1 [.leaf 2 (Bytes.zeros 65532), .u8 3 9]] = [.node 1 [.u8 3 9]] := by
    simp only [pruneAll, prune, if_pos hlong]
    rfl
  have hfirst : (refusedAll [.node 1 [.leaf 2 (Bytes.zeros 65532), .u8 3 9]]).head? =
      some (.tooLong 2 (4 + (Bytes.zeros 65532).length)) := by
    simp only [refusedAll, refused, if_pos hlong]
    rfl
  rw [Bytes.length_zeros] at hfirst
  exact ⟨haligned, hpruned, ((body_reads_pruned haligned _).2.2.2.2 _).mpr hfirst⟩

end AttrTree

end Vswitch

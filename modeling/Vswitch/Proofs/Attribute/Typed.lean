import Mathlib
import Vswitch.Proofs.Attribute.Grammar

/-!
# Typed values, written and read back

A list of typed values is written under types without flags, and the stream is parsed. Whoever looks a
type up is answered from the first value that was written under it: the integer reading of its own kind
gives the value, every integer reading of another width is refused with both widths, and a text comes
back unless it holds a zero character. A type that was not written is missing, which the optional
readings tell apart from a value that does not read.

* `Word`, `TypedValue`: what can be written, and its octets;
* `Getter`: the readings that have an optional one beside them;
* `Word.as_octets`, `Word.as_of_width`, `Attr.asText_text`: one value, read in every way;
* `Attributes.Tells`: what an optional reading answers in place of its counterpart;
* `AttrTree.writes_read_back`: any list of writes.
-/

namespace Vswitch

/-! ## Texts as octets -/

/-- The loop collects the octets from an index on, in reverse. -/
theorem Bytes.toList_loop (data : ByteArray) (i : Nat) (taken : List UInt8) :
    ByteArray.toList.loop data i taken = taken.reverse ++ data.data.toList.drop i := by
  fun_induction ByteArray.toList.loop data i taken with
  | case1 i taken hlt ih =>
    have hget : data.get! i = data.data.toList[i] := getElem!_pos data.data i hlt
    rw [ih, List.drop_eq_getElem_cons (i := i) hlt, List.reverse_cons, List.append_assoc, hget]
    rfl
  | case2 i taken hend =>
    have hdone : data.data.toList.drop i = [] := List.drop_eq_nil_of_le (Nat.le_of_not_lt hend)
    rw [hdone, List.append_nil]

theorem Bytes.toList_eq_data (data : ByteArray) : data.toList = data.data.toList :=
  Bytes.toList_loop data 0 []

/-- The octets of a text are as many as its UTF-8 size says. -/
theorem Bytes.length_toUTF8 (s : String) : s.toUTF8.toList.length = s.utf8ByteSize := by
  rw [Bytes.toList_eq_data]
  exact String.size_toByteArray

/-- Only the zero character has a zero octet. -/
theorem zero_mem_utf8EncodeChar (c : Char) : 0 ∈ String.utf8EncodeChar c ↔ c = '\x00' := by
  have hzero : c = '\x00' ↔ c.val.toNat = 0 := by
    rw [← Char.toNat_inj]
    rfl
  have hoctet (n : Nat) : (0 : UInt8) = UInt8.ofNat n ↔ n % 256 = 0 := by
    rw [← UInt8.toNat_inj, UInt8.toNat_ofNat', eq_comm]
    rfl
  -- the octets of a longer sequence have their highest bit set
  rw [hzero]
  fun_cases String.utf8EncodeChar c <;>
    simp only [List.mem_cons, List.not_mem_nil, or_false, hoctet] <;> omega

/-- A zero octet stands for the null character and for nothing else. -/
theorem zero_mem_toUTF8 (s : String) : 0 ∈ s.toUTF8.toList ↔ '\x00' ∈ s.toList := by
  have hoctets : s.toUTF8.toList = s.toList.flatMap String.utf8EncodeChar := by
    rw [String.toUTF8_eq_toByteArray, ← String.utf8Encode_toList, Bytes.toList_eq_data, List.utf8Encode,
      List.toList_data_toByteArray]
  rw [hoctets, List.mem_flatMap]
  simp only [zero_mem_utf8EncodeChar, exists_eq_right]

/-- The octets of a text spell it. -/
theorem Bytes.utf8?_toUTF8 (s : String) : Bytes.utf8? s.toUTF8.toList = some s := by
  have hwhole : ByteArray.mk s.toUTF8.toList.toArray = s.toByteArray := by
    rw [String.toUTF8_eq_toByteArray, Bytes.toList_eq_data, Array.toArray_toList]
  rw [Bytes.utf8?, hwhole, String.fromUTF8?, dif_pos s.isValidUTF8]
  rfl

/-! ## Integers -/

/-- The integers that an attribute can hold, by width, sign and order. -/
inductive Word where
  | u8 | u16 | u32 | u64 | i32 | be16 | be32 | be64
  deriving DecidableEq, Repr

namespace Word

/-- The integers themselves. -/
def Carrier : Word → Type
  | u8 => UInt8
  | u16 | be16 => UInt16
  | u32 | be32 => UInt32
  | u64 | be64 => UInt64
  | i32 => Int32

/-- Octets of an integer. -/
def width : Word → Nat
  | u8 => 1
  | u16 | be16 => 2
  | u32 | i32 | be32 => 4
  | u64 | be64 => 8

/-- The octets of an integer in its order. -/
def octets : (k : Word) → k.Carrier → Bytes
  | u8, w => [w]
  | u16, w => Bytes.le16 w
  | u32, w => Bytes.le32 w
  | u64, w => Bytes.le64 w
  | i32, w => Bytes.le32 w.toUInt32
  | be16, w => Bytes.be16 w
  | be32, w => Bytes.be32 w
  | be64, w => Bytes.be64 w

/-- The integer that octets spell. -/
def ofOctets : (k : Word) → Bytes → k.Carrier
  | u8, data => data.octet 0
  | u16, data => data.le16At 0
  | u32, data => data.le32At 0
  | u64, data => data.le64At 0
  | i32, data => (data.le32At 0).toInt32
  | be16, data => data.be16At 0
  | be32, data => data.be32At 0
  | be64, data => UInt64.ofNat (Bytes.ofBigEndian data)

/-- The write of an integer. -/
def tree : (k : Word) → (type : UInt16) → k.Carrier → AttrTree
  | u8 => AttrTree.u8
  | u16 => AttrTree.u16
  | u32 => AttrTree.u32
  | u64 => AttrTree.u64
  | i32 => AttrTree.i32
  | be16 => AttrTree.be16
  | be32 => AttrTree.be32
  | be64 => AttrTree.be64

/-- The reading of an integer. -/
def as : (k : Word) → Attr → Except AttrError k.Carrier
  | u8 => Attr.asU8
  | u16 => Attr.asU16
  | u32 => Attr.asU32
  | u64 => Attr.asU64
  | i32 => Attr.asI32
  | be16 => Attr.asBe16
  | be32 => Attr.asBe32
  | be64 => Attr.asBe64

/-- A word is written as the leaf of its octets. -/
theorem tree_eq (k : Word) (type : UInt16) (w : k.Carrier) :
    k.tree type w = .leaf type (k.octets w) := by
  cases k <;> rfl

/-- Every reading asks for the width first. -/
theorem as_eq (k : Word) (a : Attr) : k.as a = (a.exactly k.width).map k.ofOctets := by
  cases k with
  | i32 =>
    show a.asU32 >>= _ = _
    unfold Attr.asU32 width
    cases a.exactly 4 <;> rfl
  | _ =>
    dsimp only [as, width, Attr.asU8, Attr.asU16, Attr.asU32, Attr.asU64, Attr.asBe16, Attr.asBe32,
      Attr.asBe64]
    cases a.exactly _ <;> rfl

/-- A word has the octets of its width. -/
theorem length_octets (k : Word) (w : k.Carrier) : (k.octets w).length = k.width := by
  cases k with
  | u8 => rfl
  | u16 => exact Bytes.length_le16 w
  | u32 => exact Bytes.length_le32 w
  | u64 => exact Bytes.length_le64 w
  | i32 => exact Bytes.length_le32 _
  | be16 => exact Bytes.length_be16 w
  | be32 => exact Bytes.length_be32 w
  | be64 => exact Bytes.length_be64 w

/-- Reading the octets of a word gives the word. -/
theorem ofOctets_octets (k : Word) (w : k.Carrier) : k.ofOctets (k.octets w) = w := by
  cases k with
  | u8 => rfl
  | u16 => exact Bytes.le16At_le16_self w
  | u32 => exact Bytes.le32At_le32_self w
  | u64 => exact Bytes.le64At_le64_self w
  | i32 => exact congrArg UInt32.toInt32 (Bytes.le32At_le32_self w.toUInt32)
  | be16 => exact Bytes.be16At_be16_self w
  | be32 => exact Bytes.be32At_be32_self w
  | be64 => exact Bytes.ofBigEndian_be64 w

/-- The reading of its own kind gives the integer. -/
theorem as_octets (k : Word) (type : UInt16) (w : k.Carrier) : k.as ⟨type, k.octets w⟩ = .ok w := by
  rw [as_eq, Attr.exactly, if_pos (k.length_octets w)]
  exact congrArg Except.ok (k.ofOctets_octets w)

/-- A value of another width is refused. -/
theorem as_of_width (k : Word) (a : Attr) (h : k.width ≠ a.value.length) :
    k.as a = .error (.invalidLength a.kind k.width a.value.length) := by
  rw [as_eq, Attr.exactly, if_neg h.symm]
  rfl

end Word

/-! ## Values -/

/-- A value with the type that it is written as. -/
inductive TypedValue where
  | word (k : Word) (w : k.Carrier)
  | text (s : String)
  | flag
  | octets (data : Bytes)

namespace TypedValue

/-- The octets that an attribute holds for a value. -/
def encoded : TypedValue → Bytes
  | word k w => k.octets w
  | text s => s.toUTF8.toList ++ [0]
  | flag => []
  | octets data => data

/-- The write of a value. -/
def tree (type : UInt16) : TypedValue → AttrTree
  | word k w => k.tree type w
  | text s => .text type s
  | flag => .flag type
  | octets data => .leaf type data

/-- A value is written as the leaf of its encoding. -/
theorem tree_eq (type : UInt16) (v : TypedValue) : v.tree type = .leaf type v.encoded := by
  cases v with
  | word k w => exact k.tree_eq type w
  | _ => rfl

end TypedValue

/-- A text comes back, unless it holds a zero character: the zero octet that closes it is none of its
own. -/
theorem Attr.asText_text (type : UInt16) (s : String) :
    Attr.asText ⟨type, (TypedValue.text s).encoded⟩ =
      if '\x00' ∈ s.toList then .error (.invalidString (Attr.kind ⟨type, (TypedValue.text s).encoded⟩))
      else .ok s := by
  have hlast : (s.toUTF8.toList ++ [(0 : UInt8)]).getLast? = some 0 := List.getLast?_concat
  have hfront : (s.toUTF8.toList ++ [(0 : UInt8)]).dropLast = s.toUTF8.toList := List.dropLast_concat
  unfold Attr.asText TypedValue.encoded
  simp only [hlast, hfront, if_true, List.contains_iff_mem, zero_mem_toUTF8, Bytes.utf8?_toUTF8]

/-- A text without a null character is read back up to the one that ends it. -/
theorem AttrTree.Reads.asText {type : UInt16} {s : String} {a : Attr} (hs : '\x00' ∉ s.toList)
    (h : Reads (.text type s) a) : a.asText = .ok s := by
  have htext := Attr.asText_text type s
  rw [if_neg hs] at htext
  rw [AttrTree.reads_leaf.mp h]
  exact htext

/-! ## Optional readings -/

/-- A parse complains about a length and about nothing else. -/
theorem Attr.parse_eq_error {data : Bytes} {error : AttrError} (h : Attr.parse data = .error error) :
    (∃ declared remaining, error = .overrun declared remaining) ∨ ∃ len, error = .tooShort len := by
  fun_induction Attr.parse data with
  | case1 => cases h
  | case2 =>
    cases h
    exact .inl ⟨_, _, rfl⟩
  | case3 =>
    cases h
    exact .inr ⟨_, rfl⟩
  | case4 =>
    cases h
    exact .inl ⟨_, _, rfl⟩
  | case5 data _ len _ _ _ ih =>
    cases hlater : Attr.parse (data.drop (Bytes.align4 len)) with
    | error later =>
      rw [hlater] at h
      cases h
      exact ih hlater
    | ok later =>
      rw [hlater] at h
      cases h

/-- The readings that have an optional one beside them. -/
inductive Getter where
  | word (k : Word)
  | text
  | nested
  deriving DecidableEq, Repr

namespace Getter

/-- What a reading results in. -/
def Result : Getter → Type
  | word k => k.Carrier
  | text => String
  | nested => Attributes

/-- The reading of one value. -/
def as : (g : Getter) → Attr → Except AttrError g.Result
  | word k => k.as
  | text => Attr.asText
  | nested => Attr.asNested

/-- No value is refused as missing. -/
theorem as_ne_missing (g : Getter) (a : Attr) (kind : UInt16) : g.as a ≠ .error (.missing kind) := by
  intro h
  cases g with
  | word k =>
    by_cases hwidth : k.width = a.value.length
    · have hvalue : k.as a = .ok (k.ofOctets a.value) := by
        rw [k.as_eq, Attr.exactly, if_pos hwidth.symm]
        rfl
      cases hvalue.symm.trans h
    · cases (k.as_of_width a hwidth).symm.trans h
  | text =>
    have hread : a.asText = .error (.missing kind) := h
    unfold Attr.asText at hread
    simp only at hread
    generalize (if a.value.getLast? = some 0 then a.value.dropLast else a.value) = text at hread
    split at hread
    · cases hread
    split at hread
    · cases hread
    · cases hread
  | nested =>
    rcases Attr.parse_eq_error h with ⟨declared, remaining, herror⟩ | ⟨len, herror⟩
    · cases herror
    · cases herror

end Getter

namespace Attributes

section Found

variable {α : Type} {attrs : Attributes} {kind : UInt16} {a : Attr}

/-- A mandatory attribute that is there is found. -/
theorem require_of_some (h : attrs.attr? kind = some a) : attrs.require kind = .ok a := by
  rw [require, h]

/-- One that is not is missed under its kind. -/
theorem require_of_none (h : attrs.attr? kind = none) :
    attrs.require kind = .error (.missing kind) := by
  rw [require, h]

theorem read_of_some (h : attrs.attr? kind = some a) (as : Attr → Except AttrError α) :
    attrs.read as kind = as a := by
  rw [read, require_of_some h]
  rfl

theorem read_of_none (h : attrs.attr? kind = none) (as : Attr → Except AttrError α) :
    attrs.read as kind = .error (.missing kind) := by
  rw [read, require_of_none h]
  rfl

theorem read?_of_some (h : attrs.attr? kind = some a) (as : Attr → Except AttrError α) :
    attrs.read? as kind = (as a).map some := by
  rw [read?, h]

theorem read?_of_none (h : attrs.attr? kind = none) (as : Attr → Except AttrError α) :
    attrs.read? as kind = .ok none := by
  rw [read?, h]

end Found

/-- An optional reading answers nothing exactly if its counterpart misses the attribute, and what its
counterpart answers otherwise. -/
structure Tells (attrs : Attributes) (g : Getter) (kind : UInt16) : Prop where
  none_iff : attrs.read? g.as kind = .ok none ↔ attrs.read g.as kind = .error (.missing kind)
  same : attrs.read g.as kind ≠ .error (.missing kind) →
    attrs.read? g.as kind = (attrs.read g.as kind).map some

/-- Every getter reads the first attribute of its kind, and says which kind is missing. -/
theorem tells (attrs : Attributes) (g : Getter) (kind : UInt16) : attrs.Tells g kind := by
  cases hfound : attrs.attr? kind with
  | none =>
    have hmissing := read_of_none hfound g.as
    constructor
    · exact iff_of_true (read?_of_none hfound g.as) hmissing
    · intro hpresent
      exact absurd hmissing hpresent
  | some a =>
    have hread := read_of_some hfound g.as
    have hoptional := read?_of_some hfound g.as
    constructor
    · -- a value that is there gives a result or an error of its own
      have hmap : (g.as a).map some ≠ .ok none := by
        cases g.as a <;> simp [Except.map]
      rw [hread, hoptional]
      exact iff_of_false hmap (g.as_ne_missing a kind)
    · intro _
      rw [hread, hoptional]

/-- What is answered for a type under which a value was written first. -/
structure Answers (attrs : Attributes) (type : UInt16) (v : TypedValue) : Prop where
  has : attrs.has type = true
  octets : (attrs.require type).map Attr.value = .ok v.encoded
  /-- Every reading is that of the value. -/
  reads : ∀ g : Getter, attrs.read g.as type = g.as ⟨type, v.encoded⟩
  word : ∀ k w, v = .word k w → attrs.read k.as type = .ok w
  width : ∀ k : Word, k.width ≠ v.encoded.length →
    attrs.read k.as type = .error (.invalidLength type k.width v.encoded.length)
  text : ∀ s, v = .text s → attrs.read Attr.asText type =
    if '\x00' ∈ s.toList then .error (.invalidString type) else .ok s

/-- What is answered for a type that was not written. -/
structure Lacks (attrs : Attributes) (type : UInt16) : Prop where
  has : attrs.has type = false
  octets : (attrs.require type).map Attr.value = .error (.missing type)
  reads : ∀ g : Getter, attrs.read g.as type = .error (.missing type)
  reads? : ∀ g : Getter, attrs.read? g.as type = .ok none

end Attributes

/-! ## Lists of writes -/

namespace AttrTree

variable {type : UInt16} {v : TypedValue} {writes : List (UInt16 × TypedValue)} {attrs : Attributes}

/-- A type without flags is its own kind. -/
theorem and_kindMask (h : type < 0x4000) : type &&& Attr.kindMask = type :=
  Bytes.and_mask_of_lt (k := 14) rfl h

/-- The writes of a list, in its order. -/
def typed (writes : List (UInt16 × TypedValue)) : List AttrTree := writes.map fun w => w.2.tree w.1

/-- Values that fit the length field are not refused. -/
theorem refusedAll_typed (hfits : ∀ w ∈ writes, w.2.encoded.length ≤ 65531) :
    refusedAll (typed writes) = [] := by
  induction writes with
  | nil => rfl
  | cons w rest ih =>
    rcases List.forall_mem_cons.mp hfits with ⟨hfirst, hrest⟩
    have hleaf : refused (w.2.tree w.1) = [] := by
      rw [w.2.tree_eq w.1]
      apply Attr.refused_leaf
      unfold Attr.headerLength Written.maxLength
      omega
    rw [typed, List.map_cons, refusedAll, hleaf]
    exact ih hrest

/-- The first tree of a type is the write that stands first under it. -/
theorem first?_typed (htypes : ∀ w ∈ writes, w.1 < 0x4000) (type : UInt16) :
    first? (typed writes) type = (writes.lookup type).map (TypedValue.tree type) := by
  induction writes with
  | nil => rfl
  | cons w rest ih =>
    rcases List.forall_mem_cons.mp htypes with ⟨hfirst, hrest⟩
    have hkind : (w.2.tree w.1).kind = w.1 := by
      rw [w.2.tree_eq w.1]
      exact and_kindMask hfirst
    rw [typed, List.map_cons, first?_cons, hkind, List.lookup_cons]
    by_cases hsame : w.1 = type
    · rw [if_pos hsame, beq_iff_eq.mpr hsame.symm, hsame]
      rfl
    · rw [if_neg hsame, beq_eq_false_iff_ne.mpr (Ne.symm hsame)]
      exact ih hrest

/-- Every reading of a type is that of the value that stands first under it. -/
theorem answers_of_attr? (htype : type < 0x4000) (h : attrs.attr? type = some ⟨type, v.encoded⟩) :
    attrs.Answers type v := by
  have hkind : Attr.kind ⟨type, v.encoded⟩ = type := and_kindMask htype
  refine ⟨?_, ?_, ?_, ?_, ?_, ?_⟩
  · rw [Attributes.has, h]
    rfl
  · rw [Attributes.require_of_some h]
    rfl
  · intro g
    exact Attributes.read_of_some h g.as
  · rintro k w rfl
    rw [Attributes.read_of_some h]
    exact k.as_octets type w
  · intro k hwidth
    rw [Attributes.read_of_some h, k.as_of_width _ hwidth, hkind]
  · rintro s rfl
    rw [Attributes.read_of_some h, Attr.asText_text, hkind]

/-- Where a kind is not found, every getter says so. -/
theorem lacks_of_attr? (h : attrs.attr? type = none) : attrs.Lacks type := by
  refine ⟨?_, ?_, ?_, ?_⟩
  · rw [Attributes.has, h]
    rfl
  · rw [Attributes.require_of_none h]
    rfl
  · intro g
    exact Attributes.read_of_none h g.as
  · intro g
    exact Attributes.read?_of_none h g.as

/-- Typed values that fit are written under types without flags, and the stream is parsed. A type is
answered from the first value that was written under it, and is missing if there is none. -/
theorem writes_read_back (htypes : ∀ w ∈ writes, w.1 < 0x4000)
    (hfits : ∀ w ∈ writes, w.2.encoded.length ≤ 65531) :
    ∃ stream attrs, (body [] (typed writes)).finish = .ok stream ∧ Attr.parse stream = .ok attrs ∧
      (∀ type v, writes.lookup type = some v → attrs.Answers type v) ∧
      (∀ type, writes.lookup type = none → attrs.Lacks type) ∧
      ∀ g type, attrs.Tells g type := by
  have haligned : 4 ∣ ([] : Bytes).length := Nat.dvd_zero 4
  have hwhole := (refusedAll_eq_nil _).mp (refusedAll_typed hfits)
  -- nothing is pruned, so the stream is whole
  rcases body_finishes haligned (typed writes) with ⟨hpruned, -⟩ | ⟨-, hstream⟩
  · exact absurd hwhole hpruned
  rcases hstream with ⟨stream, attrs, hfinish, hparse, hreads⟩
  refine ⟨stream, attrs, hfinish, hparse, ?_, ?_, fun g type => attrs.tells g type⟩
  · intro type v hlookup
    have hwritten : (type, v) ∈ writes := by
      rcases List.lookup_eq_some_iff.mp hlookup with ⟨before, after, rfl, -⟩
      exact List.mem_append_right _ List.mem_cons_self
    have hfirst : first? (typed writes) type = some (v.tree type) := by
      rw [first?_typed htypes, hlookup]
      rfl
    rcases attr?_eq_some hreads hfirst with ⟨a, ha, hleaf⟩
    rw [v.tree_eq type, reads_leaf] at hleaf
    rw [hleaf] at ha
    exact answers_of_attr? (htypes _ hwritten) ha
  · intro type hlookup
    have hfirst : first? (typed writes) type = none := by
      rw [first?_typed htypes, hlookup]
      rfl
    exact lacks_of_attr? (attr?_eq_none hreads hfirst)

/-- Two values under one type, a text, a text with a zero character inside, and a flag. -/
def mixedWrites : List (UInt16 × TypedValue) :=
  [(1, .word .u16 (5 : UInt16)), (0x3fff, .text "ovs"), (1, .word .be32 (7 : UInt32)),
    (4, .text "a\x00"), (5, .flag)]

theorem writes_read_back_mixedWrites :
    (∀ w ∈ mixedWrites, w.1 < 0x4000) ∧ (∀ w ∈ mixedWrites, w.2.encoded.length ≤ 65531) ∧
      ∃ stream attrs, (body [] (typed mixedWrites)).finish = .ok stream ∧
        Attr.parse stream = .ok attrs ∧
        attrs.read Attr.asU16 1 = .ok 5 ∧
        attrs.read Attr.asBe32 1 = .error (.invalidLength 1 4 2) ∧
        attrs.read Attr.asText 0x3fff = .ok "ovs" ∧
        attrs.read Attr.asText 4 = .error (.invalidString 4) ∧
        attrs.read Attr.asU8 5 = .error (.invalidLength 5 1 0) ∧
        attrs.read Attr.asU8 2 = .error (.missing 2) ∧ attrs.read? Attr.asU8 2 = .ok none := by
  have htypes : ∀ w ∈ mixedWrites, w.1 < 0x4000 := by decide
  have hfits : ∀ w ∈ mixedWrites, w.2.encoded.length ≤ 65531 := by
    -- the octets of a text are evaluated as those of its array
    simp only [mixedWrites, List.forall_mem_cons, TypedValue.encoded, Bytes.toList_eq_data]
    decide
  rcases writes_read_back htypes hfits with ⟨stream, attrs, hfinish, hparse, hwritten, hmissing, -⟩
  have hfirst := hwritten 1 (.word .u16 (5 : UInt16)) rfl
  have hflag := hwritten 5 .flag rfl
  have habsent := hmissing 2 rfl
  refine ⟨htypes, hfits, stream, attrs, hfinish, hparse, hfirst.word .u16 _ rfl,
    hfirst.width .be32 (by decide), (hwritten 0x3fff (.text "ovs") rfl).text _ rfl,
    (hwritten 4 (.text "a\x00") rfl).text _ rfl, hflag.width .u8 (by decide),
    habsent.reads (.word .u8), habsent.reads? (.word .u8)⟩

end AttrTree

end Vswitch

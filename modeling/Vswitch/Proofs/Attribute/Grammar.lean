import Mathlib
import Vswitch.Proofs.Attribute.Reading
import Vswitch.Proofs.Computation

/-!
# The grammar of attribute streams

A stream is a row of attributes. Each declares its length, header included, in sixteen bits, and each
but the last is followed by the octets that align the next one; the last may lack some of these. What
such octets hold does not matter. The reader accepts exactly these strings. What it has read is
written as the same row, with zeros for all of these octets, and reads the same again.

* `Attr.loop`, `Attr.loop_eq`: the reader as a loop, and a bound on its turns;
* `Attr.Piece`, `Attr.IsStream`: the rows that are streams;
* `Attr.parse_join`, `Attr.exists_stream`: every row is read, and nothing else is;
* `Attr.finish_leaves`: what is written for attributes that were read;
* `Attr.parse_iff_stream`: the reader and the writer against the grammar.
-/

namespace Vswitch

namespace Attr

variable {data : Bytes} {attrs : Attributes}

/-! ## Attributes in a string -/

/-- The length that an attribute declares: that of its header and its value. -/
def declared (a : Attr) : Nat := headerLength + a.value.length

/-- How many octets align what follows an attribute. -/
def gap (a : Attr) : Nat := Bytes.align4 a.declared - a.declared

/-- The octets of an attribute, up to the end of its value. -/
def octets (a : Attr) : Bytes :=
  Bytes.le16 (UInt16.ofNat a.declared) ++ (Bytes.le16 a.type ++ a.value)

/-- An attribute at the front of a string, when its length fits the field. -/
theorem parse_octets {a : Attr} (hfits : a.declared ≤ Written.maxLength) (behind : Bytes) :
    parse (a.octets ++ behind) = (parse (behind.drop a.gap)).map (a :: ·) := by
  have hfront := AttrTree.parse_front a.type hfits behind
  unfold octets
  rw [List.append_assoc, List.append_assoc]
  exact hfront

theorem parse_nil : parse [] = .ok [] := by
  unfold parse
  rfl

/-- The attribute at the front of a string that covers the length declared there. -/
def front (data : Bytes) : Attr :=
  ⟨data.le16At 2, data.slice headerLength ((data.le16At 0).toNat - headerLength)⟩

theorem declared_front (hheader : headerLength ≤ (data.le16At 0).toNat)
    (hcovers : (data.le16At 0).toNat ≤ data.length) : (front data).declared = (data.le16At 0).toNat := by
  unfold headerLength at hheader
  simp only [declared, front, headerLength, Bytes.length_slice]
  omega

/-- The front of the string is spelt as the attribute that is read there. -/
theorem octets_front_append (hheader : headerLength ≤ (data.le16At 0).toNat)
    (hcovers : (data.le16At 0).toNat ≤ data.length) :
    (front data).octets ++ data.drop (data.le16At 0).toNat = data := by
  have hdeclared := declared_front hheader hcovers
  unfold headerLength at hheader
  have hword : Bytes.le16 (data.le16At 0) = data.slice 0 2 := Bytes.le16_le16At (by omega)
  have htype : Bytes.le16 (data.le16At 2) = data.slice 2 2 := Bytes.le16_le16At (by omega)
  unfold octets
  rw [hdeclared, UInt16.ofNat_toNat, hword]
  unfold front headerLength
  generalize (data.le16At 0).toNat = len at *
  have hfront : data.slice 0 2 ++ (data.slice 2 2 ++ data.slice 4 (len - 4)) = data.take len := by
    have hbody := Bytes.slice_append_slice data 2 2 (len - 4)
    have hwhole := Bytes.slice_append_slice data 0 2 (2 + (len - 4))
    rw [hbody, hwhole, Bytes.slice_zero]
    congr 1
    omega
  rw [htype, hfront, List.take_append_drop]

/-! ## The reader as a loop -/

/-- One turn of the reader: the attribute at the front of a string, and what is left behind it and the
octets that align the next one. -/
def turn (data : Bytes) : Except AttrError (Attr × Bytes) :=
  let len := (data.le16At 0).toNat
  if ¬ data.Covers headerLength then
    .error (.overrun headerLength data.length)
  else if len < headerLength then
    .error (.tooShort len)
  else if ¬ data.Covers len then
    .error (.overrun len data.length)
  else
    .ok (front data, data.drop (min (Bytes.align4 len) data.length))

/-- The reader with the attributes that it has taken so far. Nothing comes of it when the turns are
used up before the string is. -/
def loop : (turns : Nat) → Attributes → Bytes → Option (Except AttrError Attributes)
  | 0, _, _ => none
  | turns + 1, attrs, data =>
    if data = [] then
      some (.ok attrs)
    else
      match turn data with
      | .error error => some (.error error)
      | .ok (a, rest) => loop turns (attrs ++ [a]) rest

theorem parse_eq_turn (hnonempty : data ≠ []) :
    parse data = turn data >>= fun taken => (parse taken.2).map (taken.1 :: ·) := by
  rw [parse, if_neg hnonempty]
  unfold turn
  simp only [Bytes.drop_min_length]
  split_ifs
  · rfl
  · rfl
  · rfl
  · rfl

/-- A turn takes an attribute off the front, and with it what aligns the next one. -/
theorem front_of_turn {a : Attr} {rest : Bytes} (h : turn data = .ok (a, rest)) :
    a.declared ≤ Written.maxLength ∧
      ∃ behind, data = a.octets ++ behind ∧ rest = behind.drop a.gap := by
  unfold turn at h
  simp only [Bytes.covers_iff, Bytes.drop_min_length] at h
  split_ifs at h with hheader hlong hcovers
  have hdeclared := declared_front (Nat.le_of_not_lt hlong) hcovers
  have hdata := octets_front_append (Nat.le_of_not_lt hlong) hcovers
  rcases Prod.mk.inj (Except.ok.inj h) with ⟨ha, hrest⟩
  rw [ha] at hdeclared hdata
  constructor
  · rw [hdeclared]
    exact Nat.le_of_lt_succ (data.le16At 0).toNat_lt
  · -- the declared length, aligned, takes in the gap behind it
    refine ⟨_, hdata.symm, ?_⟩
    unfold gap
    rw [hdeclared, List.drop_drop, Nat.add_sub_cancel' (Bytes.le_align4 _), hrest]

theorem length_octets (a : Attr) : a.octets.length = a.declared := by
  simp [octets, declared, headerLength]
  omega

/-- Each turn takes four octets or more, so the loop ends, and with what the reader makes of the
string. -/
theorem loop_eq {turns : Nat} (hturns : data.length < 4 * turns) (attrs : Attributes) :
    loop turns attrs data = some ((parse data).map (attrs ++ ·)) := by
  induction turns generalizing data attrs with
  | zero => contradiction
  | succ turns ih =>
    rw [loop]
    by_cases hempty : data = []
    · rw [if_pos hempty, hempty, parse_nil, Except.map, List.append_nil]
    · rw [if_neg hempty, parse_eq_turn hempty]
      cases hturn : turn data with
      | error error => rfl
      | ok taken =>
        rcases taken with ⟨a, rest⟩
        rcases front_of_turn hturn with ⟨-, behind, hdata, hrest⟩
        have hshort : rest.length < 4 * turns := by
          have hlength := congrArg List.length hdata
          rw [List.length_append, length_octets] at hlength
          unfold declared headerLength at hlength
          rw [hrest, List.length_drop]
          omega
        have hloop := ih hshort (attrs ++ [a])
        simp only [hloop, bind, Except.bind]
        cases parse rest with
        | error error => rfl
        | ok later => simp [Except.map]

/-- What is read of a string that is not empty stands at its front. -/
theorem exists_front (hnonempty : data ≠ []) (h : parse data = .ok attrs) :
    ∃ a behind later, a.declared ≤ Written.maxLength ∧ data = a.octets ++ behind ∧
      parse (behind.drop a.gap) = .ok later ∧ attrs = a :: later := by
  rw [parse_eq_turn hnonempty] at h
  rcases bind_eq_ok.mp h with ⟨⟨a, rest⟩, hturn, hlater⟩
  rcases front_of_turn hturn with ⟨hfits, behind, hdata, rfl⟩
  cases hparse : parse (behind.drop a.gap) with
  | error error =>
    rw [hparse] at hlater
    cases hlater
  | ok later =>
    rw [hparse] at hlater
    exact ⟨a, behind, later, hfits, hdata, hparse, (Except.ok.inj hlater).symm⟩

/-! ## Rows of attributes -/

/-- An attribute with the octets that stand between it and the next one. -/
structure Piece where
  attr : Attr
  padding : Bytes
  deriving DecidableEq, Repr

namespace Piece

/-- The octets of a piece. -/
def octets (p : Piece) : Bytes := p.attr.octets ++ p.padding

/-- The string that several pieces make up. -/
def join (pieces : List Piece) : Bytes := pieces.flatMap octets

/-- The piece with zeros behind its attribute, up to where the next one is aligned. -/
def zeroed (p : Piece) : Piece := ⟨p.attr, Bytes.zeros p.attr.gap⟩

theorem join_cons (p : Piece) (pieces : List Piece) :
    join (p :: pieces) = p.attr.octets ++ (p.padding ++ join pieces) := by
  unfold join octets
  rw [List.flatMap_cons, List.append_assoc]

end Piece

/-- The rows that are streams: every length fits its field, and every piece is padded in full, but for
the last, which is padded at most so far. -/
inductive IsStream : List Piece → Prop where
  | nil : IsStream []
  | last {p : Piece} (hfits : p.attr.declared ≤ Written.maxLength)
      (hpadding : p.padding.length ≤ p.attr.gap) : IsStream [p]
  | cons {p next : Piece} {later : List Piece} (hfits : p.attr.declared ≤ Written.maxLength)
      (hpadding : p.padding.length = p.attr.gap) (hlater : IsStream (next :: later)) :
      IsStream (p :: next :: later)

variable {pieces : List Piece}

/-- Every stream is read, as the attributes that it is made of. -/
theorem parse_join (h : IsStream pieces) : parse (Piece.join pieces) = .ok (pieces.map Piece.attr) := by
  induction h with
  | nil => exact parse_nil
  | @last p hfits hpadding =>
    have hbehind : (p.padding ++ Piece.join []).drop p.attr.gap = [] := by
      apply List.drop_eq_nil_of_le
      simpa [Piece.join] using hpadding
    rw [Piece.join_cons, parse_octets hfits, hbehind, parse_nil]
    rfl
  | @cons p next later hfits hpadding _ ih =>
    rw [Piece.join_cons, parse_octets hfits, List.drop_left' hpadding, ih]
    rfl

/-- Nothing but streams is read. -/
theorem exists_stream (h : parse data = .ok attrs) :
    ∃ pieces, IsStream pieces ∧ Piece.join pieces = data ∧ pieces.map Piece.attr = attrs := by
  induction attrs generalizing data with
  | nil =>
    -- a string that is not empty would have a first attribute
    by_cases hempty : data = []
    · exact ⟨[], .nil, hempty.symm, rfl⟩
    · rcases exists_front hempty h with ⟨a, behind, later, -, -, -, hattrs⟩
      contradiction
  | cons a later ih =>
    have hnonempty : data ≠ [] := by
      intro hempty
      rw [hempty, parse_nil] at h
      cases h
    rcases exists_front hnonempty h with ⟨b, behind, rest, hfits, hdata, hrest, hattrs⟩
    cases hattrs
    rcases ih hrest with ⟨pieces, hpieces, hjoin, hmap⟩
    refine ⟨⟨a, behind.take a.gap⟩ :: pieces, ?_, ?_, ?_⟩
    · -- octets are missing behind the attribute only if nothing follows
      cases pieces with
      | nil =>
        apply IsStream.last hfits
        exact List.length_take_le _ _
      | cons next tail =>
        refine IsStream.cons hfits ?_ hpieces
        have hbehind : behind.drop a.gap ≠ [] := by
          intro hempty
          rw [hempty, parse_nil] at hrest
          cases hrest
          cases hmap
        have hlt := List.length_lt_of_drop_ne_nil hbehind
        exact List.length_take_of_le (Nat.le_of_lt hlt)
    · rw [Piece.join_cons, hjoin, List.take_append_drop, hdata]
    · rw [List.map_cons, hmap]

theorem IsStream.fits (h : IsStream pieces) : ∀ p ∈ pieces, p.attr.declared ≤ Written.maxLength := by
  induction h with
  | nil => simp
  | last hfits _ => simpa using hfits
  | cons hfits _ _ ih =>
    intro p hp
    rcases List.mem_cons.mp hp with rfl | hlater
    · exact hfits
    · exact ih p hlater

/-- Whatever is read fits its length. -/
theorem declared_le_of_parse (h : parse data = .ok attrs) :
    ∀ a ∈ attrs, a.declared ≤ Written.maxLength := by
  rcases exists_stream h with ⟨pieces, hpieces, -, rfl⟩
  intro a ha
  rcases List.mem_map.mp ha with ⟨p, hp, rfl⟩
  exact hpieces.fits p hp

/-- A stream is one still with zeros for all octets that align. -/
theorem IsStream.zeroed (h : IsStream pieces) : IsStream (pieces.map Piece.zeroed) := by
  have hzeros (p : Piece) : p.zeroed.padding.length = p.zeroed.attr.gap := Bytes.length_zeros _
  induction h with
  | nil => exact .nil
  | @last p hfits _ => exact .last hfits (Nat.le_of_eq (hzeros p))
  | @cons p next later hfits _ _ ih => exact .cons hfits (hzeros p) ih

/-! ## Written again -/

/-- The write of an attribute with its type and its value. -/
def leaf (a : Attr) : AttrTree := .leaf a.type a.value

/-- The writer takes a value that fits under any type. -/
theorem refused_leaf (type : UInt16) {value : Bytes}
    (hfits : headerLength + value.length ≤ Written.maxLength) :
    AttrTree.refused (.leaf type value) = [] := by
  unfold headerLength Written.maxLength at hfits
  exact AttrTree.refused_leaf_eq_nil.mpr (by omega)

/-- Attributes whose lengths fit are all written, each with zeros up to where the next one is
aligned. -/
theorem encodingAll_leaves (hfits : ∀ p ∈ pieces, p.attr.declared ≤ Written.maxLength) :
    AttrTree.refusedAll ((pieces.map Piece.attr).map leaf) = [] ∧
      AttrTree.encodingAll ((pieces.map Piece.attr).map leaf) =
        Piece.join (pieces.map Piece.zeroed) := by
  induction pieces with
  | nil => exact ⟨rfl, rfl⟩
  | cons p later ih =>
    rcases ih fun q hq => hfits q (List.mem_cons_of_mem p hq) with ⟨hrefused, hencoding⟩
    constructor
    · rw [List.map_cons, List.map_cons, AttrTree.refusedAll, hrefused, leaf,
        refused_leaf _ (hfits p List.mem_cons_self), List.append_nil]
    · rw [List.map_cons, List.map_cons, AttrTree.encodingAll, hencoding, List.map_cons,
        Piece.join_cons]
      simp [leaf, AttrTree.encoding, octets, Piece.zeroed, gap, declared, headerLength]

theorem finish_leaves (h : IsStream pieces) :
    (AttrTree.body [] ((pieces.map Piece.attr).map leaf)).finish =
      .ok (Piece.join (pieces.map Piece.zeroed)) := by
  rcases encodingAll_leaves h.fits with ⟨hrefused, hencoding⟩
  have haligned : 4 ∣ ([] : Bytes).length := Nat.dvd_zero 4
  rw [AttrTree.body_eq haligned, hrefused, (AttrTree.refusedAll_eq_nil _).mp hrefused, hencoding]
  rfl

/-- The reader ends on every string, within a turn for each four octets and one more. It succeeds
exactly on the streams, and answers the attributes that a stream is made of. Written again they are
that stream with zeros for the octets that align, the missing ones included, and this reads the
same. -/
theorem parse_iff_stream (data : Bytes) :
    loop (data.length / 4 + 1) [] data = some (parse data) ∧
      ((∃ attrs, parse data = .ok attrs) ↔
        ∃ pieces, IsStream pieces ∧ Piece.join pieces = data) ∧
      ∀ pieces, IsStream pieces → Piece.join pieces = data →
        parse data = .ok (pieces.map Piece.attr) ∧
          (AttrTree.body [] ((pieces.map Piece.attr).map leaf)).finish =
            .ok (Piece.join (pieces.map Piece.zeroed)) ∧
          parse (Piece.join (pieces.map Piece.zeroed)) = .ok (pieces.map Piece.attr) := by
  refine ⟨?_, ?_, ?_⟩
  -- every turn takes at least the four octets of a header
  · have hturns : data.length < 4 * (data.length / 4 + 1) := by omega
    rw [loop_eq hturns]
    cases parse data with
    | error error => rfl
    | ok attrs => rfl
  · constructor
    · rintro ⟨attrs, hattrs⟩
      rcases exists_stream hattrs with ⟨pieces, hpieces, hjoin, -⟩
      exact ⟨pieces, hpieces, hjoin⟩
    · rintro ⟨pieces, hpieces, rfl⟩
      exact ⟨_, parse_join hpieces⟩
  · rintro pieces hpieces rfl
    have hagain := parse_join hpieces.zeroed
    rw [List.map_map] at hagain
    exact ⟨parse_join hpieces, finish_leaves hpieces, hagain⟩

/-- A value of one octet with other octets than zeros behind it, and a nested one of two octets at the
end, behind which an octet is missing. -/
def untidy : List Piece :=
  [⟨⟨1, [7]⟩, [0xaa, 0xbb, 0xcc]⟩, ⟨⟨0x8002, [1, 2]⟩, [0xdd]⟩]

theorem parse_iff_stream_untidy :
    IsStream untidy ∧
      Piece.join untidy = [5, 0, 1, 0, 7, 0xaa, 0xbb, 0xcc, 6, 0, 2, 0x80, 1, 2, 0xdd] ∧
      parse (Piece.join untidy) = .ok [⟨1, [7]⟩, ⟨0x8002, [1, 2]⟩] ∧
      (AttrTree.body [] ([⟨1, [7]⟩, ⟨0x8002, [1, 2]⟩].map leaf)).finish =
        .ok [5, 0, 1, 0, 7, 0, 0, 0, 6, 0, 2, 0x80, 1, 2, 0, 0] := by
  have hstream : IsStream untidy := .cons (by decide) (by decide) (.last (by decide) (by decide))
  rcases (parse_iff_stream (Piece.join untidy)).2.2 untidy hstream rfl with ⟨hparse, hwritten, -⟩
  exact ⟨hstream, by decide, hparse, hwritten⟩

end Attr

end Vswitch

import Mathlib
import Vswitch.Proofs.Attribute.Grammar
import Vswitch.Proofs.Computation
import Vswitch.Proofs.Flow.Codec

/-!
# What is carried through

A key or an action of no modelled kind is held as its kind and its value, and written as it is held.
The writer takes every one of them, with the value octet for octet, behind what is written for the
elements in front of it. The flags of its type are not held: the attribute comes back unchanged
exactly if it had none.

Keys are all written. An action can outgrow its length field on the way: the last attribute that is
nested in it may have come without the octets that align, and is written with them.

* `AttrTree.place`, `AttrTree.getElem?_pruneAll`: where a tree stands among those that are written;
* `Attr.carried`, `Attr.carried_eq_self`: an attribute without its flags;
* `FlowKey.decode_eq_unknown`, `FlowAction.decode_eq_unknown`: what is carried through;
* `FlowKey.refused_tree_of_decode`: keys that were read are written whole;
* `unmodelled_written`: both lists, read and written again.
-/

namespace Vswitch

/-! ## Places -/

namespace AttrTree

variable {trees : List AttrTree} {i : Nat} {tree left : AttrTree}

/-- Where a tree stands among those that are written: behind what is left of the trees in front of
it. -/
def place (trees : List AttrTree) (i : Nat) : Nat := (pruneAll (trees.take i)).length

theorem pruneAll_append (trees more : List AttrTree) :
    pruneAll (trees ++ more) = pruneAll trees ++ pruneAll more := by
  induction trees with
  | nil => rfl
  | cons tree rest ih => rw [List.cons_append, pruneAll, pruneAll, ih, List.append_assoc]

theorem getElem?_pruneAll (htree : trees[i]? = some tree) (hleft : prune tree = some left) :
    (pruneAll trees)[place trees i]? = some left := by
  have hsplit : trees = trees.take i ++ (tree :: trees.drop (i + 1)) := by
    rcases List.getElem?_eq_some_iff.mp htree with ⟨hi, rfl⟩
    rw [List.getElem_cons_drop, List.take_append_drop]
  have hpruned : pruneAll trees =
      pruneAll (trees.take i) ++ (left :: pruneAll (trees.drop (i + 1))) := by
    conv_lhs => rw [hsplit]
    rw [pruneAll_append, pruneAll, hleft]
    rfl
  rw [hpruned, place, List.getElem?_append_right (Nat.le_refl _), Nat.sub_self]
  rfl

/-- When everything is written, every tree keeps its place. -/
theorem place_eq (hwhole : pruneAll trees = trees) (htree : trees[i]? = some tree) :
    place trees i = i := by
  rcases List.getElem?_eq_some_iff.mp htree with ⟨hi, -⟩
  have hfront := length_pruneAll_le (trees.take i)
  have hbehind := length_pruneAll_le (trees.drop i)
  have hlength := congrArg List.length hwhole
  conv_lhs at hlength => rw [← List.take_append_drop i trees]
  rw [pruneAll_append, List.length_append] at hlength
  rw [List.length_take] at hfront
  rw [List.length_drop] at hbehind
  unfold place
  omega

theorem getElem?_of_readsAll {attrs : Attributes} (h : ReadsAll trees attrs)
    (htree : trees[i]? = some tree) : ∃ a, attrs[i]? = some a ∧ Reads tree a := by
  induction trees generalizing i attrs with
  | nil => contradiction
  | cons first rest ih =>
    rw [ReadsAll] at h
    rcases h with ⟨a, later, rfl, hfirst, hrest⟩
    cases i with
    | zero =>
      cases htree
      exact ⟨a, rfl, hfirst⟩
    | succ i =>
      simp only [List.getElem?_cons_succ] at htree ⊢
      exact ih hrest htree

/-- A leaf of a few octets is always written. -/
theorem refused_short (type : UInt16) {value : Bytes} (hshort : value.length ≤ 24) :
    refused (.leaf type value) = [] := by
  have hfits : Attr.headerLength + value.length ≤ Written.maxLength :=
    Nat.le_trans (Nat.add_le_add_left hshort 4) (by decide)
  exact Attr.refused_leaf type hfits

theorem sizeAll_le_of_short
    (h : ∀ tree ∈ trees, ∃ type value, tree = .leaf type value ∧ value.length ≤ 24) :
    sizeAll trees ≤ 28 * trees.length := by
  induction trees with
  | nil => exact Nat.zero_le _
  | cons tree rest ih =>
    rcases h tree List.mem_cons_self with ⟨type, value, rfl, hvalue⟩
    have hrest := ih fun tree htree => h tree (List.mem_cons_of_mem _ htree)
    rw [sizeAll, size, List.length_cons]
    unfold Bytes.align4
    omega

/-- So is a node of a few such leaves. -/
theorem refused_node_of_short (type : UInt16) (hfew : trees.length ≤ 7)
    (h : ∀ tree ∈ trees, ∃ type value, tree = .leaf type value ∧ value.length ≤ 24) :
    refused (.node type trees) = [] := by
  have hsize := sizeAll_le_of_short h
  have hfits : ¬ 65535 < size (.node type trees) := by
    rw [size]
    omega
  have hchildren : refusedAll trees = [] := by
    apply refusedAll_eq_nil_iff.mpr
    intro tree htree
    rcases h tree htree with ⟨type, value, rfl, hvalue⟩
    exact refused_short type hvalue
  rw [refused, hchildren, (refusedAll_eq_nil trees).mp hchildren, if_neg hfits]
  rfl

end AttrTree

/-! ## Attributes without their flags -/

namespace Attr

variable {a : Attr}

/-- An attribute as it is carried through. -/
def carried (a : Attr) : Attr := ⟨a.kind, a.value⟩

theorem carried_eq_self : a.carried = a ↔ IsPlain a.type := by
  constructor
  · intro h
    have htype : a.type &&& kindMask = a.type := congrArg Attr.type h
    have hle : a.type.toNat ≤ 0x3fff := by
      rw [← htype, UInt16.toNat_and]
      exact Nat.and_le_right
    exact UInt16.lt_iff_toNat_lt.mpr (Nat.lt_succ_of_le hle)
  · intro h
    have htype : a.kind = a.type := h.and_kindMask
    unfold carried
    rw [htype]

/-- An attribute is carried to a place of a stream: it stands there without its flags, and so
unchanged exactly if it had none. -/
def CarriedTo (a : Attr) (again : Attributes) (place : Nat) : Prop :=
  again[place]? = some a.carried ∧ (again[place]? = some a ↔ IsPlain a.type)

/-- What was read and is written without its flags stands in its place among what is written. -/
theorem carriedTo_place {trees : List AttrTree} {again : Attributes} {i : Nat}
    (hfits : a.declared ≤ Written.maxLength) (htree : trees[i]? = some a.carried.leaf)
    (hagain : AttrTree.ReadsAll (AttrTree.pruneAll trees) again) :
    a.CarriedTo again (AttrTree.place trees i) := by
  have hleft : AttrTree.prune a.carried.leaf = some a.carried.leaf :=
    (AttrTree.refused_eq_nil _).mp (refused_leaf a.kind hfits)
  have hplace := AttrTree.getElem?_pruneAll htree hleft
  rcases AttrTree.getElem?_of_readsAll hagain hplace with ⟨b, hb, hreads⟩
  rw [AttrTree.reads_leaf.mp hreads] at hb
  constructor
  · exact hb
  · rw [hb, Option.some_inj]
    exact carried_eq_self

/-- In a list that was read attribute by attribute, an element that holds no more than kind and value
is written as the attribute in its place without the flags. -/
theorem getElem?_map_unknown {α : Type} {unknown : UInt16 → Bytes → α}
    {decode : Attr → Except AttrError α} (toTree : α → AttrTree)
    (htree : ∀ type value, toTree (unknown type value) = .leaf type value)
    (hdecode : ∀ b type value, decode b = .ok (unknown type value) → ⟨type, value⟩ = b.carried)
    {attrs : Attributes} {xs : List α} (h : attrs.mapM decode = .ok xs) {i : Nat} {type : UInt16}
    {value : Bytes} (ha : attrs[i]? = some a) (hi : xs[i]? = some (unknown type value)) :
    (xs.map toTree)[i]? = some a.carried.leaf := by
  rcases exists_of_mapM h hi with ⟨b, hb, hunknown⟩
  rw [ha] at hb
  cases hb
  rw [List.getElem?_map, hi, ← hdecode a type value hunknown]
  exact congrArg some (htree type value)

end Attr

variable {a : Attr} {type : UInt16} {value : Bytes}

/-! ## Keys -/

namespace FlowKey

/-- The keys that are carried through are exactly those of no modelled kind. -/
theorem decode_eq_unknown :
    decode a = .ok (.unknown type value) ↔
      a.kind ∉ KeyKind.modelled ∧ (⟨type, value⟩ : Attr) = a.carried := by
  simp only [KeyKind.modelled, List.mem_cons, List.not_mem_nil, or_false, not_or]
  constructor
  · intro h
    -- every other branch makes a key of its own
    rcases passed_branch (bind_ne_ok fun _ h => by cases h) h with ⟨hpriority, h⟩
    rcases passed_branch (bind_ne_ok fun _ h => by cases h) h with ⟨hinPort, h⟩
    rcases passed_branch (bind_ne_ok fun _ h => by cases h) h with ⟨hethernet, h⟩
    rcases passed_branch (bind_ne_ok fun _ h => by cases h) h with ⟨hvlan, h⟩
    rcases passed_branch (bind_ne_ok fun _ h => by cases h) h with ⟨hetherType, h⟩
    rcases passed_branch (bind_ne_ok fun _ h => by cases h) h with ⟨hipv4, h⟩
    rcases passed_branch (bind_ne_ok fun _ h => by cases h) h with ⟨htcp, h⟩
    rcases passed_branch (bind_ne_ok fun _ h => by cases h) h with ⟨hudp, h⟩
    rcases passed_branch (bind_ne_ok fun _ h => by cases h) h with ⟨hicmp, h⟩
    rcases passed_branch (bind_ne_ok fun _ h => by cases h) h with ⟨harp, h⟩
    rcases passed_branch (bind_ne_ok fun _ h => by cases h) h with ⟨hskbMark, h⟩
    rcases passed_branch (bind_ne_ok fun _ h => by cases h) h with ⟨htunnel, h⟩
    cases h
    exact ⟨⟨hpriority, hinPort, hethernet, hvlan, hetherType, hipv4, htcp, hudp, hicmp, harp, hskbMark,
      htunnel⟩, rfl⟩
  · rintro ⟨hother, hcarried⟩
    cases hcarried
    unfold decode
    simp only [hother, if_false]
    rfl

/-- The outer header of a tunnel is seven short attributes at most. -/
theorem refused_tunnelTrees (key : TunnelKey) :
    AttrTree.refused (.node KeyKind.tunnel (tunnelTrees key)) = [] := by
  apply AttrTree.refused_node_of_short
  · have hone {α : Type} (o : Option α) (toTree : α → AttrTree) :
        (o.map toTree).toList.length ≤ 1 := by
      cases o <;> simp
    have hflag (condition : Bool) (tree : AttrTree) :
        (if condition then [tree] else []).length ≤ 1 := by
      cases condition <;> simp
    have hid := hone key.id (.be64 TunnelKind.id)
    have hsource := hone key.source (.ipv4 TunnelKind.source)
    have hdestination := hone key.destination (.ipv4 TunnelKind.destination)
    have htos := hone key.tos (.u8 TunnelKind.tos)
    have httl := hone key.ttl (.u8 TunnelKind.ttl)
    have hfragment := hflag key.dontFragment (.flag TunnelKind.dontFragment)
    have hchecksum := hflag key.checksum (.flag TunnelKind.checksum)
    unfold tunnelTrees
    simp only [List.length_append]
    omega
  · intro tree htree
    simp only [tunnelTrees, List.mem_append, Option.mem_toList, Option.map_eq_some_iff,
      List.mem_ite_nil_right, List.mem_singleton] at htree
    rcases htree with (((((⟨id, -, rfl⟩ | ⟨source, -, rfl⟩) | ⟨destination, -, rfl⟩) |
      ⟨tos, -, rfl⟩) | ⟨ttl, -, rfl⟩) | ⟨-, rfl⟩) | ⟨-, rfl⟩
    all_goals exact ⟨_, _, rfl, by simp⟩

/-- A key that was read is written whole. -/
theorem refused_tree_of_decode {key : FlowKey} (hfits : a.declared ≤ Written.maxLength)
    (h : decode a = .ok key) : AttrTree.refused key.tree = [] := by
  -- only a value of no modelled kind has a length of its own
  cases key with
  | unknown type value =>
    rcases decode_eq_unknown.mp h with ⟨-, hcarried⟩
    cases hcarried
    exact Attr.refused_leaf a.kind hfits
  | tunnel key => exact refused_tunnelTrees key
  | ipv4 key => exact AttrTree.refused_short _ (by simp [ipv4Octets])
  | arp key => exact AttrTree.refused_short _ (by simp [arpOctets])
  | _ => exact AttrTree.refused_short _ (by simp)

end FlowKey

namespace FlowMatch

variable {attrs : Attributes} {keys : FlowMatch}

/-- Keys that were read are all written. -/
theorem refusedAll_trees (hfits : ∀ a ∈ attrs, a.declared ≤ Written.maxLength)
    (h : decode attrs = .ok keys) : AttrTree.refusedAll keys.trees = [] := by
  apply AttrTree.refusedAll_eq_nil_iff.mpr
  intro tree htree
  rcases List.mem_map.mp htree with ⟨key, hkey, rfl⟩
  rcases List.getElem?_of_mem hkey with ⟨i, hi⟩
  rcases exists_of_mapM h hi with ⟨a, ha, hdecode⟩
  exact FlowKey.refused_tree_of_decode (hfits a (List.mem_of_getElem? ha)) hdecode

theorem getElem?_trees {i : Nat} (h : decode attrs = .ok keys) (ha : attrs[i]? = some a)
    (hi : keys[i]? = some (.unknown type value)) : keys.trees[i]? = some a.carried.leaf := by
  apply Attr.getElem?_map_unknown FlowKey.tree _ _ h ha hi
  · intro type value
    rfl
  · intro b type value hdecode
    exact (FlowKey.decode_eq_unknown.mp hdecode).2

end FlowMatch

/-! ## Actions -/

namespace FlowAction

/-- The actions that are carried through are exactly those of no modelled kind. -/
theorem decode_eq_unknown :
    decode a = .ok (.unknown type value) ↔
      a.kind ∉ ActionKind.modelled ∧ (⟨type, value⟩ : Attr) = a.carried := by
  simp only [ActionKind.modelled, List.mem_cons, List.not_mem_nil, or_false, not_or]
  constructor
  · intro h
    -- as with keys; one branch has an action without a value, and two read a nested stream
    rcases passed_branch (bind_ne_ok fun _ h => by cases h) h with ⟨houtput, h⟩
    rcases passed_branch (bind_ne_ok fun _ => bind_ne_ok fun _ h => by cases h) h with ⟨huserspace, h⟩
    rcases passed_branch (bind_ne_ok fun attrs hfirst => by
      cases attrs with
      | nil => cases hfirst
      | cons key later => exact bind_ne_ok (fun _ h => by cases h) hfirst) h with ⟨hset, h⟩
    rcases passed_branch (bind_ne_ok fun _ h => by cases h) h with ⟨hpushVlan, h⟩
    rcases passed_branch (fun h => by cases h) h with ⟨hpopVlan, h⟩
    cases h
    exact ⟨⟨houtput, huserspace, hset, hpushVlan, hpopVlan⟩, rfl⟩
  · rintro ⟨hother, hcarried⟩
    cases hcarried
    unfold decode
    simp only [hother, if_false]
    rfl

variable {attrs : Attributes} {actions : List FlowAction}

theorem getElem?_trees {i : Nat} (h : decodeAll attrs = .ok actions) (ha : attrs[i]? = some a)
    (hi : actions[i]? = some (.unknown type value)) :
    (trees actions)[i]? = some a.carried.leaf := by
  apply Attr.getElem?_map_unknown tree _ _ h ha hi
  · intro type value
    rfl
  · intro b type value hdecode
    exact (decode_eq_unknown.mp hdecode).2

/-- Whatever the writer refuses of actions that were read, it is one of a modelled kind. -/
theorem exists_refused (hfits : ∀ a ∈ attrs, a.declared ≤ Written.maxLength)
    (h : decodeAll attrs = .ok actions) {error : AttrError}
    (herror : error ∈ AttrTree.refusedAll (trees actions)) :
    ∃ action ∈ actions, error ∈ AttrTree.refused action.tree ∧
      ∀ type value, action ≠ .unknown type value := by
  rcases AttrTree.mem_refusedAll.mp herror with ⟨tree, htree, hrefused⟩
  rcases List.mem_map.mp htree with ⟨action, haction, rfl⟩
  refine ⟨action, haction, hrefused, ?_⟩
  -- what is carried through fits, as it did when it was read
  rintro type value rfl
  rcases List.getElem?_of_mem haction with ⟨i, hi⟩
  rcases exists_of_mapM h hi with ⟨a, ha, hdecode⟩
  rcases decode_eq_unknown.mp hdecode with ⟨-, hcarried⟩
  cases hcarried
  have hnone := Attr.refused_leaf a.kind (hfits a (List.mem_of_getElem? ha))
  rw [tree, hnone] at hrefused
  contradiction

end FlowAction

/-! ## Written again -/

/-- Lists that were read from a stream are written with every attribute that was read as a key or an
action of no modelled kind. None of these is refused, and each stands in its place with its kind and
its value. It is the attribute that was read exactly if that had no flags. Keys are always written
whole, so that every place is the one in the list; for actions it is if the writer succeeds. -/
theorem unmodelled_written {data : Bytes} {attrs : Attributes}
    (hparse : Attr.parse data = .ok attrs) :
    (∀ keys : FlowMatch, FlowMatch.decode attrs = .ok keys →
      ∃ bytes again, (AttrTree.body [] keys.trees).finish = .ok bytes ∧
        Attr.parse bytes = .ok again ∧
        ∀ (i : Nat) a type value, attrs[i]? = some a → keys[i]? = some (.unknown type value) →
          a.CarriedTo again i) ∧
    ∀ actions, FlowAction.decodeAll attrs = .ok actions →
      ∃ again, Attr.parse (AttrTree.body [] (FlowAction.trees actions)).bytes = .ok again ∧
        (∀ error, (AttrTree.body [] (FlowAction.trees actions)).finish = .error error →
          ∃ action ∈ actions, error ∈ AttrTree.refused action.tree ∧
            ∀ type value, action ≠ .unknown type value) ∧
        ∀ (i : Nat) a type value, attrs[i]? = some a → actions[i]? = some (.unknown type value) →
          a.CarriedTo again (AttrTree.place (FlowAction.trees actions) i) ∧
            ((∃ bytes, (AttrTree.body [] (FlowAction.trees actions)).finish = .ok bytes) →
              a.CarriedTo again i) := by
  have hfits := Attr.declared_le_of_parse hparse
  have haligned : 4 ∣ ([] : Bytes).length := Nat.dvd_zero 4
  constructor
  · intro keys hkeys
    have hrefused := FlowMatch.refusedAll_trees hfits hkeys
    -- nothing is pruned, so every key stands in its own place
    have hwhole := (AttrTree.refusedAll_eq_nil _).mp hrefused
    rcases AttrTree.parse_encodingAll keys.trees with ⟨again, hagain, hreads⟩
    refine ⟨_, again, ?_, hagain, ?_⟩
    · rw [AttrTree.body_eq haligned, hrefused]
      rfl
    · intro i a type value ha hi
      have htree := FlowMatch.getElem?_trees hkeys ha hi
      have hcarried := Attr.carriedTo_place (hfits a (List.mem_of_getElem? ha)) htree hreads
      rw [AttrTree.place_eq hwhole htree] at hcarried
      exact hcarried
  · intro actions hactions
    rcases AttrTree.parse_encodingAll (FlowAction.trees actions) with ⟨again, hagain, hreads⟩
    -- an action may be refused, and what comes after it moves up
    have hbody := AttrTree.body_eq haligned (FlowAction.trees actions)
    refine ⟨again, ?_, ?_, ?_⟩
    · rw [hbody]
      exact hagain
    · intro error herror
      rw [AttrTree.finish_eq_error, hbody] at herror
      exact FlowAction.exists_refused hfits hactions (List.mem_of_head? herror)
    · intro i a type value ha hi
      have htree := FlowAction.getElem?_trees hactions ha hi
      have hcarried := Attr.carriedTo_place (hfits a (List.mem_of_getElem? ha)) htree hreads
      constructor
      · exact hcarried
      · intro hfinish
        rw [AttrTree.finish_eq_ok, hbody, List.head?_eq_none_iff,
          AttrTree.refusedAll_eq_nil] at hfinish
        rw [AttrTree.place_eq hfinish htree] at hcarried
        exact hcarried

/-- Two attributes of no modelled kind, the first of them marked as nested. -/
def flagged : List Attr.Piece := [⟨⟨0x8014, [0, 0, 0, 1]⟩, []⟩, ⟨⟨22, [9]⟩, [0, 0, 0]⟩]

theorem isStream_flagged : Attr.IsStream flagged :=
  .cons (by decide) (by decide) (.last (by decide) (by decide))

theorem unmodelled_written_flagged :
    Attr.parse (Attr.Piece.join flagged) = .ok [⟨0x8014, [0, 0, 0, 1]⟩, ⟨22, [9]⟩] ∧
      (∃ bytes again,
        (AttrTree.body [] (FlowMatch.trees [.unknown 20 [0, 0, 0, 1], .unknown 22 [9]])).finish =
          .ok bytes ∧
        Attr.parse bytes = .ok again ∧ again[0]? = some ⟨20, [0, 0, 0, 1]⟩ ∧
        again[1]? = some ⟨22, [9]⟩) ∧
      ∃ again,
        Attr.parse (AttrTree.body []
          (FlowAction.trees [.unknown 20 [0, 0, 0, 1], .unknown 22 [9]])).bytes = .ok again ∧
        again[0]? = some ⟨20, [0, 0, 0, 1]⟩ ∧ again[1]? = some ⟨22, [9]⟩ := by
  have hparse := Attr.parse_join isStream_flagged
  rcases unmodelled_written hparse with ⟨hkeys, hactions⟩
  rcases hkeys [.unknown 20 [0, 0, 0, 1], .unknown 22 [9]] rfl with
    ⟨bytes, again, hfinish, hagain, hwritten⟩
  rcases hactions [.unknown 20 [0, 0, 0, 1], .unknown 22 [9]] rfl with ⟨taken, htaken, -, hplaced⟩
  refine ⟨hparse, ⟨bytes, again, hfinish, hagain, ?_, ?_⟩, taken, htaken, ?_, ?_⟩
  · exact (hwritten 0 _ 20 _ rfl rfl).1
  · exact (hwritten 1 _ 22 _ rfl rfl).1
  · exact (hplaced 0 _ 20 _ rfl rfl).1.1
  · exact (hplaced 1 _ 22 _ rfl rfl).1.1

/-- Not every attribute that is carried through comes back as it was read. -/
theorem not_forall_carried_unchanged :
    ¬ ∀ (data : Bytes) (attrs : Attributes) (keys : FlowMatch), Attr.parse data = .ok attrs →
      FlowMatch.decode attrs = .ok keys →
      ∃ bytes again, (AttrTree.body [] keys.trees).finish = .ok bytes ∧
        Attr.parse bytes = .ok again ∧
        ∀ (i : Nat) a type value, attrs[i]? = some a → keys[i]? = some (.unknown type value) →
          again[i]? = some a := by
  intro h
  rcases h _ _ [.unknown 20 [0, 0, 0, 1], .unknown 22 [9]] (Attr.parse_join isStream_flagged) rfl with
    ⟨bytes, again, hfinish, hagain, hunchanged⟩
  have hplain : Attr.IsStream [⟨⟨20, [0, 0, 0, 1]⟩, []⟩, ⟨⟨22, [9]⟩, [0, 0, 0]⟩] :=
    .cons (by decide) (by decide) (.last (by decide) (by decide))
  have hwritten := hfinish.symm.trans (Attr.finish_leaves hplain)
  cases hwritten
  have hread := hagain.symm.trans (Attr.parse_join hplain.zeroed)
  cases hread
  have hfirst := hunchanged 0 ⟨0x8014, [0, 0, 0, 1]⟩ 20 [0, 0, 0, 1] rfl rfl
  cases hfirst

end Vswitch

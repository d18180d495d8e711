import NewOrbit.Displayer.BondTree

/-!
# `Displayer.Edits` — the tree of a bond, and the saves of its leaves

The tree that `Bond` renders has every key of the bond in one category (`keys_categorize`), and every leaf it shows
is found at the path under which it stands, less the category (`leaves_item`). With the objects mirroring the bond
from the start (`mirrors_categorize`), every save of a run changes the leaf that was edited and no other
(`edits_kept`). The exception is a key `__proto__`: assigning to it on a category makes no entry.
-/

namespace NewOrbit.Displayer.BondTree

/-! ## The categories

By induction on the keys that were filled in already: each category has those that belong to it, and the objects of
the bond are left alone. A key `__proto__` would call the setter in place of making an entry, and so it is excluded.
-/

theorem keys_parse (t : Json) (p : List String) : (parse t (.bond p)).props.keys = t.keysAt p := by
  rw [KeyedTree.keysAt, KeyedTree.look, parse]
  cases t.get? p with
  | none => rfl
  | some t' => cases t' <;> rfl

theorem get_parse (t : Json) (p : List String) (k : String) :
    (parse t (.bond p)).props.get k = (t.look (p ++ [k])).map (Value.parsed (p ++ [k])) := by
  rw [KeyedTree.look_append, parse]
  cases t.get? p with
  | none => rfl
  | some t' =>
      cases t' with
      | leaf s => rfl
      | branch keys nodup child =>
          show (propsOf p (.branch keys nodup child)).get k = _
          by_cases hk : k ∈ keys
          · rw [LinkedMap.get_of_mem (show k ∈ (propsOf p (.branch keys nodup child)).keys from hk)]
            simp [propsOf, KeyedTree.look_branch_cons, hk]
          · rw [LinkedMap.get_of_notMem (show k ∉ (propsOf p (.branch keys nodup child)).keys from hk)]
            simp [KeyedTree.look_branch_cons, hk]

theorem prototype_parse (t : Json) (r : Ref) : (parse t r).prototype = .root := by
  cases r <;> rfl

/-- **Filling the categories**: each has the keys that belong to it, in order, with their values. -/
theorem fill_keys (cats : Categories) {h : Heap} (hroot : ∀ r, (h r).prototype = .root)
    (hempty : ∀ r, (∀ p, r ≠ .bond p) → (h r).props.keys = []) {l : List String} (hnodup : l.Nodup)
    (hproto : "__proto__" ∉ l) {h' : Heap}
    (hh' : l.foldl (fun h key => h.assign (cats.of key) key (h.get bond key)) h = h') :
    (∀ p, h' (.bond p) = h (.bond p)) ∧ (∀ r, (h' r).prototype = .root) ∧
      (∀ r, (∀ p, r ≠ .bond p) → (h' r).props.keys = l.filter (cats.of · = r)) ∧
      ∀ k ∈ l, (h' (cats.of k)).props.get k = some (h.get bond k) := by
  induction l using List.reverseRecOn generalizing h' with
  | nil =>
      subst hh'
      exact ⟨fun _ => rfl, hroot, hempty, fun k hk => absurd hk List.not_mem_nil⟩
  | append_singleton l k ih =>
      rw [List.foldl_concat] at hh'
      obtain ⟨hl, -, hdisj⟩ := List.nodup_append.mp hnodup
      have hkl : k ∉ l := fun hk => hdisj k hk k (by simp) rfl
      obtain ⟨hbond, hproto', hkeys, hget⟩ := ih hl (fun hc => hproto (List.mem_append_left _ hc)) rfl
      generalize hm : l.foldl (fun h key => h.assign (cats.of key) key (h.get bond key)) h = m at *
      have hk : k ≠ "__proto__" := fun hc => hproto (by simp [hc])
      have hv : m.get bond k = h.get bond k := by
        rw [get_of_root (hproto' _), get_of_root (hroot _), bond, hbond]
      rw [assign_of_ne hk, hv] at hh'
      subst hh'
      refine ⟨fun p => ?_, fun r => ?_, fun r hr => ?_, fun k' hk' => ?_⟩
      · rw [put_of_ne _ _ _ _ (of_ne_bond cats k p).symm]
        exact hbond p
      · simpa using hproto' r
      · rw [keys_put, hkeys r hr, List.filter_append]
        by_cases hrk : r = cats.of k
        · simp [hrk, hkl]
        · simp [hrk, Ne.symm hrk]
      · rw [get_put]
        by_cases hkk : k' = k
        · simp [hkk]
        · have hl' : k' ∈ l := (List.mem_append.mp hk').resolve_right (by simpa using hkk)
          rw [if_neg (fun hc => hkk hc.2)]
          exact hget k' hl'

/-- The objects of a rendered tree. -/
def rendered (cats : Categories) (t : Json) : Heap := categorize cats (parse t)

theorem new_parse (t : Json) :
    Function.update (Function.update (Function.update (parse t) .economic Obj.new) .credit Obj.new) .trading Obj.new =
      parse t := by
  have heq : ∀ r, parse t r = Obj.new → Function.update (parse t) r Obj.new = parse t := by
    intro r hr
    rw [← hr, Function.update_eq_self]
  rw [heq .economic rfl, heq .credit rfl, heq .trading rfl]

theorem keys_of_notBond {t : Json} {r : Ref} (hr : ∀ p, r ≠ .bond p) : (parse t r).props.keys = [] := by
  cases r with
  | bond p => exact absurd rfl (hr p)
  | _ => rfl

section
variable {cats : Categories} {t : Json}

/-- The objects of a rendered tree, but for the one that has the categories. -/
theorem exists_filled (cats : Categories) (hproto : "__proto__" ∉ t.keysAt []) : ∃ h : Heap,
    rendered cats t = Function.update h .categorized
      { props := ((LinkedMap.empty.put "Economic_data" (.object .economic)).put "Credit_data" (.object .credit)).put
          "Trading_data" (.object .trading)
        prototype := .root } ∧
    (∀ p, h (.bond p) = parse t (.bond p)) ∧ (∀ r, (h r).prototype = .root) ∧
      (∀ r, (∀ p, r ≠ .bond p) → (h r).props.keys = (t.keysAt []).filter (cats.of · = r)) ∧
      ∀ k ∈ t.keysAt [], (h (cats.of k)).props.get k = (t.look [k]).map (Value.parsed [k]) := by
  have hforIn : (parse t).forIn bond = t.keysAt [] := by
    rw [forIn_of_root (prototype_parse t bond), bond, keys_parse]
  refine ⟨_, rfl, ?_⟩
  obtain ⟨hbond, hroot, hkeys, hget⟩ := fill_keys cats (prototype_parse t) (fun r hr => keys_of_notBond hr)
    (t.nodup_keysAt []) hproto rfl
  simp only [new_parse, hforIn]
  refine ⟨hbond, hroot, hkeys, fun k hk => ?_⟩
  obtain ⟨label, hlabel⟩ : ∃ label, t.look [k] = some label := KeyedTree.exists_look_of_mem_keysAt hk
  have hown : (parse t bond).props.get k = some (Value.parsed [k] label) := by
    rw [bond, get_parse, List.nil_append, hlabel]
    rfl
  rw [hget k hk, get_of_own hown, hlabel]
  rfl

theorem of_ne_categorized (key : String) : cats.of key ≠ .categorized := by
  rcases of_eq_or cats key with h | h | h <;> simp [h]

theorem mirrors_rendered (hproto : "__proto__" ∉ t.keysAt []) : Mirrors cats t (rendered cats t) := by
  obtain ⟨h, heq, hbond, hroot, -, hcat⟩ := exists_filled cats hproto
  have hb : ∀ p, rendered cats t (.bond p) = parse t (.bond p) := by
    intro p
    rw [heq, Function.update_of_ne (by simp)]
    exact hbond p
  refine { root := fun r => ?_, keys := fun p => ?_, get := fun p k _ => ?_, category := fun k hk => ?_,
           get_bond := fun k => ?_ }
  · rw [heq]
    by_cases hr : r = .categorized
    · rw [hr, Function.update_self]
    · rw [Function.update_of_ne hr]
      exact hroot r
  · rw [hb]
    exact keys_parse t p
  · rw [hb]
    exact get_parse t p k
  · rw [heq, Function.update_of_ne (of_ne_categorized k)]
    exact hcat k hk
  · rw [bond, hb]
    exact get_parse t [] k

/-- Each category has the keys of the bond that belong to it. -/
theorem keys_rendered (hproto : "__proto__" ∉ t.keysAt []) {c : Ref} (hc : ∀ p, c ≠ .bond p)
    (hcat : c ≠ .categorized) : (rendered cats t c).props.keys = (t.keysAt []).filter (cats.of · = c) := by
  obtain ⟨h, heq, -, -, hkeys, -⟩ := exists_filled cats hproto
  rw [heq, Function.update_of_ne hcat]
  exact hkeys c hc

end

/-! ## The tree

`item` is the tree said by recursion on the bond, without objects or fuel. As long as the objects mirror the bond, the
loop of `objectToTreeItem` makes that tree. -/

/-- The leaf of a key, in the category `name`. -/
def shown (cats : Categories) (isin : Value) (name : String) (path : List String) (key : String) : EditableVal :=
  { valKey := key, parentObj := cats.parent path key, path := name :: (path ++ [key]), isin := isin
    endIcon := if key = "longDescription" ∨ key = "couponCurrency" then .plain else .disabled }

/-- The item of a key of the parsed bond, in the category `name`. -/
def item (cats : Categories) (isin : Value) (name : String) : List String → String → Json → Item
  | path, key, .leaf s => if s = .null then .treeItem key [] else .editableVal (shown cats isin name path key)
  | path, key, .branch keys _ child =>
      .treeItem key (keys.attach.map fun ⟨k, hk⟩ => item cats isin name (path ++ [key]) k (child k hk))

/-- A loop in which every round gives a result. -/
theorem mapM_eq_some {α β : Type} {f : α → Option β} {l : List α} (g : (a : α) → a ∈ l → β)
    (h : ∀ a (ha : a ∈ l), f a = some (g a ha)) : l.mapM f = some (l.attach.map fun a => g a.1 a.2) := by
  have hval : l.attach.map Subtype.val = l := List.attach_map_subtype_val l
  have hf : (f ∘ Subtype.val : {a // a ∈ l} → Option β) = fun a => some (g a.1 a.2) := funext fun a => h a.1 a.2
  calc l.mapM f = (l.attach.map Subtype.val).mapM f := by rw [hval]
    _ = l.attach.mapM (f ∘ Subtype.val) := by rw [List.mapM_map]
    _ = some (l.attach.map fun a => g a.1 a.2) := by
        rw [hf]
        exact List.mapM_pure

/-- What the tree reads at a key is the value of the bond. -/
theorem get_parent {cats : Categories} {t : Json} {h : Heap} (hm : Mirrors cats t h) {path : List String}
    {key : String} {l : KeyedTree.Label String Scalar} (hl : t.look (path ++ [key]) = some l) :
    h.get (cats.parent path key) key = Value.parsed (path ++ [key]) l := by
  apply get_of_own
  unfold Categories.parent
  split
  · rename_i hpath
    subst hpath
    rw [hm.category key (KeyedTree.mem_keysAt_of_look hl)]
    rw [List.nil_append] at hl ⊢
    rw [hl]
    rfl
  · rename_i hpath
    rw [hm.get path key hpath, hl]
    rfl

/-- Enough fuel makes the item of a key, and all items below it. -/
theorem treeItem_eq_item {cats : Categories} {t : Json} {h : Heap} (hm : Mirrors cats t h) (isin : Value)
    (name : String) (t' : Json) {path : List String} {key : String} {fuel : ℕ}
    (ht' : t.get? (path ++ [key]) = some t') (hfuel : t'.size ≤ fuel) :
    treeItem h isin (objectToTreeItem h isin fuel) (name :: path) (cats.parent path key) key =
      some (item cats isin name path key t') := by
  induction t' generalizing path key fuel with
  | leaf s =>
      have hlook : t.look (path ++ [key]) = some (.leaf s) := by
        rw [KeyedTree.look, ht']
        rfl
      rw [treeItem, get_parent hm hlook]
      cases s with
      | null =>
          obtain ⟨fuel, rfl⟩ := Nat.exists_eq_succ_of_ne_zero (Nat.pos_iff_ne_zero.mp hfuel)
          rfl
      | _ => rfl
  | branch keys nodup child ih =>
      have hlook : t.look (path ++ [key]) = some (.branch keys) := by
        rw [KeyedTree.look, ht']
        rfl
      obtain ⟨fuel, rfl⟩ := Nat.exists_eq_succ_of_ne_zero (Nat.pos_iff_ne_zero.mp
        (Nat.lt_of_lt_of_le (KeyedTree.size_pos _) hfuel))
      have hkeys : h.forIn (.bond (path ++ [key])) = keys := by
        rw [forIn_of_root (hm.root _), hm.keys, KeyedTree.keysAt, hlook]
      have hbelow : objectToTreeItem h isin (fuel + 1) (name :: (path ++ [key])) (.object (.bond (path ++ [key]))) =
          some (keys.attach.map fun k => item cats isin name (path ++ [key]) k.1 (child k.1 k.2)) := by
        rw [objectToTreeItem, hkeys]
        apply mapM_eq_some fun k hk => item cats isin name (path ++ [key]) k (child k hk)
        intro k hk
        have hparent : cats.parent (path ++ [key]) k = .bond (path ++ [key]) := if_neg (by simp)
        rw [← hparent]
        apply ih k hk
        · rw [KeyedTree.get?_append, ht']
          simp [KeyedTree.get?, hk]
        · have hsize := KeyedTree.size_child nodup child hk
          omega
      rw [treeItem, get_parent hm hlook]
      simp only [Value.parsed, Value.isObject, Bool.not_true, List.cons_append, hbelow, item]
      rfl

/-- The item of a category: its keys, each with its item. -/
def categoryItem (cats : Categories) (isin : Value) (keys : List String) (child : ∀ k ∈ keys, Json) (name : String)
    (c : Ref) : Item :=
  .treeItem name ((keys.filter (cats.of · = c)).attach.map fun k =>
    item cats isin name [] k.1 (child k.1 (List.mem_of_mem_filter k.2)))

/-- The three categories, by their names. -/
def names : List (String × Ref) :=
  [("Economic_data", .economic), ("Credit_data", .credit), ("Trading_data", .trading)]

def items (cats : Categories) (isin : Value) (keys : List String) (child : ∀ k ∈ keys, Json) : List Item :=
  names.map fun c => categoryItem cats isin keys child c.1 c.2

theorem exists_name (cats : Categories) (key : String) : ∃ name, (name, cats.of key) ∈ names := by
  rcases of_eq_or cats key with h | h | h <;> simp [names, h]

theorem name_eq {name name' : String} {c : Ref} (h : (name, c) ∈ names) (h' : (name', c) ∈ names) : name = name' := by
  simp only [names, List.mem_cons, Prod.mk.injEq, List.not_mem_nil, or_false] at h h'
  rcases h with ⟨rfl, rfl⟩ | ⟨rfl, rfl⟩ | ⟨rfl, rfl⟩ <;> simpa [eq_comm] using h'

/-- The object that has the categories. -/
theorem categorized_rendered (cats : Categories) (t : Json) (hproto : "__proto__" ∉ t.keysAt []) :
    (rendered cats t).forIn .categorized = names.map Prod.fst ∧
      ∀ c ∈ names, (rendered cats t).get .categorized c.1 = .object c.2 ∧
        (rendered cats t).forIn c.2 = (t.keysAt []).filter (cats.of · = c.2) := by
  obtain ⟨h, heq, -⟩ := exists_filled cats hproto
  have hget : ∀ c ∈ names, (rendered cats t).get .categorized c.1 = .object c.2 := by
    rw [heq]
    simp only [names, List.forall_mem_cons, List.not_mem_nil, false_imp_iff, implies_true, and_true]
    exact ⟨rfl, rfl, rfl⟩
  refine ⟨by rw [heq]; rfl, fun c hc => ⟨hget c hc, ?_⟩⟩
  have hne : (∀ p, c.2 ≠ .bond p) ∧ c.2 ≠ .categorized := by
    simp only [names, List.mem_cons, List.not_mem_nil, or_false] at hc
    rcases hc with rfl | rfl | rfl <;> simp
  rw [forIn_of_root ((mirrors_rendered hproto).root _)]
  exact keys_rendered hproto hne.1 hne.2

section
variable {cats : Categories} {keys : List String} {nodup : keys.Nodup} {child : ∀ k ∈ keys, Json}

theorem treeItem_category (hproto : "__proto__" ∉ keys) (isin : Value) {c : String × Ref} (hc : c ∈ names) {fuel : ℕ}
    (hfuel : (KeyedTree.branch keys nodup child).size ≤ fuel) :
    treeItem (rendered cats (.branch keys nodup child)) isin
        (objectToTreeItem (rendered cats (.branch keys nodup child)) isin fuel) [] .categorized c.1 =
      some (categoryItem cats isin keys child c.1 c.2) := by
  have hm : Mirrors cats (.branch keys nodup child) (rendered cats (.branch keys nodup child)) :=
    mirrors_rendered hproto
  obtain ⟨hget, hkeys⟩ := (categorized_rendered cats (.branch keys nodup child) hproto).2 c hc
  generalize rendered cats (.branch keys nodup child) = h at *
  obtain ⟨fuel, rfl⟩ := Nat.exists_eq_succ_of_ne_zero (Nat.pos_iff_ne_zero.mp
    (Nat.lt_of_lt_of_le (KeyedTree.size_pos _) hfuel))
  have hbelow : objectToTreeItem h isin (fuel + 1) [c.1] (.object c.2) =
      some ((keys.filter (cats.of · = c.2)).attach.map fun k =>
        item cats isin c.1 [] k.1 (child k.1 (List.mem_of_mem_filter k.2))) := by
    rw [objectToTreeItem, hkeys]
    apply mapM_eq_some fun k hk => item cats isin c.1 [] k (child k (List.mem_of_mem_filter hk))
    intro k hk
    have hk' := List.mem_of_mem_filter hk
    have hparent : cats.parent [] k = c.2 := (if_pos rfl).trans (of_decide_eq_true (List.mem_filter.mp hk).2)
    have hchild : (KeyedTree.branch keys nodup child).get? ([] ++ [k]) = some (child k hk') := by
      simp [KeyedTree.get?, hk']
    have hsize := KeyedTree.size_child nodup child hk'
    calc treeItem h isin (objectToTreeItem h isin fuel) [c.1] c.2 k
        = treeItem h isin (objectToTreeItem h isin fuel) [c.1] (cats.parent [] k) k := by rw [hparent]
      _ = some (item cats isin c.1 [] k (child k hk')) := treeItem_eq_item hm isin c.1 _ hchild (by omega)
  rw [treeItem, hget]
  simp only [Value.isObject, Bool.not_true, List.nil_append, hbelow, categoryItem]
  rfl

/-- **The tree of a bond.** Any fuel above the size of the bond makes all of it. -/
theorem objectToTreeItem_eq (hproto : "__proto__" ∉ keys) (isin : Value) {fuel : ℕ}
    (hfuel : (KeyedTree.branch keys nodup child).size < fuel) :
    objectToTreeItem (rendered cats (.branch keys nodup child)) isin fuel [] (.object .categorized) =
      some (items cats isin keys child) := by
  obtain ⟨fuel, rfl⟩ := Nat.exists_eq_succ_of_ne_zero (Nat.ne_zero_of_lt hfuel)
  rw [objectToTreeItem, (categorized_rendered cats (.branch keys nodup child) hproto).1, List.mapM_map]
  exact mapM_eq_some (fun c _ => categoryItem cats isin keys child c.1 c.2) fun c hc =>
    treeItem_category hproto isin hc (Nat.lt_succ_iff.mp hfuel)

end

/-! ## The leaves that are shown

A leaf stands under the labels above it. These are the keys of its path in the bond, so that a leaf is found by where
it stands. -/

mutual

/-- The leaves of an item, each with the labels under which it stands. -/
def Item.leaves : Item → List (List String × EditableVal)
  | .value _                 => []
  | .editableVal e           => [([e.valKey], e)]
  | .treeItem label children => (leavesOf children).map fun leaf => (label :: leaf.1, leaf.2)

def leavesOf : List Item → List (List String × EditableVal)
  | []        => []
  | i :: rest => i.leaves ++ leavesOf rest

end

theorem mem_leavesOf {is : List Item} {leaf : List String × EditableVal} :
    leaf ∈ leavesOf is ↔ ∃ i ∈ is, leaf ∈ i.leaves := by
  induction is with
  | nil => simp [leavesOf]
  | cons i rest ih => simp [leavesOf, ih]

/-- **What is shown**: a leaf stands under its path, and it is a leaf of the bond. -/
theorem leaves_item {cats : Categories} {t : Json} {isin : Value} {name : String} (t' : Json) {path : List String}
    {key : String} (ht' : t.get? (path ++ [key]) = some t') {trail : List String} {e : EditableVal}
    (hleaf : (trail, e) ∈ (item cats isin name path key t').leaves) :
    ∃ q k s, path ++ trail = q ++ [k] ∧ e = shown cats isin name q k ∧ t.look (q ++ [k]) = some (.leaf s) := by
  induction t' generalizing path key trail with
  | leaf s =>
      rw [item] at hleaf
      split at hleaf
      · simp [Item.leaves, leavesOf] at hleaf
      · obtain ⟨rfl, rfl⟩ : trail = [key] ∧ e = shown cats isin name path key := by
          simpa [Item.leaves, shown] using hleaf
        refine ⟨path, key, s, rfl, rfl, ?_⟩
        rw [KeyedTree.look, ht']
        rfl
  | branch keys nodup child ih =>
      rw [item, Item.leaves] at hleaf
      obtain ⟨⟨rest, e'⟩, hrest, heq⟩ := List.mem_map.mp hleaf
      obtain ⟨rfl, rfl⟩ := Prod.mk.inj heq
      obtain ⟨i, hi, hleaf⟩ := mem_leavesOf.mp hrest
      obtain ⟨k, -, rfl⟩ := List.mem_map.mp hi
      have hchild : t.get? ((path ++ [key]) ++ [k.1]) = some (child k.1 k.2) := by
        rw [KeyedTree.get?_append, ht']
        simp [KeyedTree.get?, k.2]
      obtain ⟨q, k', s, hpath, he, hlook⟩ := ih k.1 k.2 hchild hleaf
      exact ⟨q, k', s, by rw [← hpath]; simp, he, hlook⟩

/-! ## Saves

A save sends the path of the leaf without its category, and changes the bond at that path. By induction every save of
a run does so, since the objects mirror the changed bond after it. -/

def Item.label : Item → Option String
  | .value _         => none
  | .editableVal e   => some e.valKey
  | .treeItem key _  => some key

/-- The keys shown right below an item. -/
def Item.keys : Item → List String
  | .treeItem _ children => children.filterMap Item.label
  | _                    => []

theorem label_item (cats : Categories) (isin : Value) (name : String) (path : List String) (key : String) (t : Json) :
    (item cats isin name path key t).label = some key := by
  cases t with
  | leaf s =>
      rw [item]
      split <;> rfl
  | branch keys nodup child => rfl

theorem keys_categoryItem (cats : Categories) (isin : Value) (keys : List String) (child : ∀ k ∈ keys, Json)
    (name : String) (c : Ref) : (categoryItem cats isin keys child name c).keys = keys.filter (cats.of · = c) := by
  have hlabel : (Item.label ∘ fun k : {k // k ∈ keys.filter (cats.of · = c)} =>
      item cats isin name [] k.1 (child k.1 (List.mem_of_mem_filter k.2))) = some ∘ Subtype.val :=
    funext fun k => label_item ..
  rw [categoryItem, Item.keys, List.filterMap_map, hlabel, List.filterMap_eq_map, List.attach_map_subtype_val]

section
variable {cats : Categories} {isin : Value} {keys : List String} {child : ∀ k ∈ keys, Json}

/-- Every key is shown in one of the categories. -/
theorem existsUnique_category {key : String} (hkey : key ∈ keys) :
    ∃! c, c ∈ items cats isin keys child ∧ key ∈ c.keys := by
  have hmem : ∀ name c, key ∈ (categoryItem cats isin keys child name c).keys ↔ cats.of key = c := by
    intro name c
    rw [keys_categoryItem]
    simp [hkey]
  obtain ⟨name, hname⟩ := exists_name cats key
  refine ⟨categoryItem cats isin keys child name (cats.of key), ⟨List.mem_map_of_mem hname, (hmem _ _).mpr rfl⟩, ?_⟩
  rintro c ⟨hc, hkeyc⟩
  obtain ⟨⟨name', r⟩, hname', rfl⟩ := List.mem_map.mp hc
  obtain rfl := (hmem _ _).mp hkeyc
  rw [name_eq hname' hname]

/-- A leaf of the tree stands under its category and its path. -/
theorem leaves_items (nodup : keys.Nodup) {trail : List String} {e : EditableVal}
    (hleaf : (trail, e) ∈ leavesOf (items cats isin keys child)) :
    ∃ name q k s, trail = name :: (q ++ [k]) ∧ e = shown cats isin name q k ∧
      (KeyedTree.branch keys nodup child).look (q ++ [k]) = some (.leaf s) := by
  obtain ⟨c, hc, hleaf⟩ := mem_leavesOf.mp hleaf
  obtain ⟨⟨name, r⟩, -, rfl⟩ := List.mem_map.mp hc
  rw [categoryItem, Item.leaves] at hleaf
  obtain ⟨⟨rest, e'⟩, hrest, heq⟩ := List.mem_map.mp hleaf
  obtain ⟨rfl, rfl⟩ := Prod.mk.inj heq
  obtain ⟨i, hi, hleaf⟩ := mem_leavesOf.mp hrest
  obtain ⟨key, -, rfl⟩ := List.mem_map.mp hi
  have hkey := List.mem_of_mem_filter key.2
  have hchild : (KeyedTree.branch keys nodup child).get? ([] ++ [key.1]) = some (child key.1 hkey) := by
    simp [KeyedTree.get?, hkey]
  obtain ⟨q, k, s, hpath, he, hlook⟩ := leaves_item _ hchild hleaf
  exact ⟨name, q, k, s, by rw [← hpath]; rfl, he, hlook⟩

end

/-- A save of a leaf that stands under `trail`: the path that is sent is that place without its category, and leads to
    the value that is shown; after the save the bond has the new value there, and all others as before. -/
structure Kept (cats : Categories) (h : Heap) (trail : List String) (s : Save) : Prop where
  path : s.request.path = trail.drop 1
  addresses : ∃ old, h.get s.leaf.parentObj s.leaf.valKey = .scalar old ∧
    h.leafAt (.object bond) s.request.path = some old
  new_value : (handleSave cats h s).leafAt (.object bond) s.request.path = some s.newVal
  others : ∀ q, q ≠ s.request.path →
    (handleSave cats h s).leafAt (.object bond) q = h.leafAt (.object bond) q

section
variable {cats : Categories} {isin : Value} {t : Json} {h : Heap}

theorem leafAt_bond (hm : Mirrors cats t h) (hbranch : ∃ keys, t.look [] = some (.branch keys)) (q : List String) :
    h.leafAt (.object bond) q = t.leafAt q := by
  obtain ⟨keys, hkeys⟩ := hbranch
  exact leafAt_parsed hm q hkeys

/-- **One save.** -/
theorem kept_of_mirrors (hm : Mirrors cats t h) (hbranch : ∃ keys, t.look [] = some (.branch keys)) {name : String}
    {q : List String} {k : String} {old : Scalar} (hlook : t.look (q ++ [k]) = some (.leaf old)) {s : Save}
    (hs : s.leaf = shown cats isin name q k) : Kept cats h (name :: (q ++ [k])) s := by
  have hpath : s.request.path = q ++ [k] := by
    rw [Save.request, hs]
    rfl
  have hparent : s.leaf.parentObj = cats.parent q k := by
    rw [hs]
    rfl
  have hkey : s.leaf.valKey = k := by
    rw [hs]
    rfl
  have hleaf : t.leafAt (q ++ [k]) = some old := KeyedTree.leafAt_eq_some.mpr hlook
  have hm' := mirrors_handleSave hm hlook hparent hkey
  have hbranch' : ∃ keys, (t.set (q ++ [k]) s.newVal).look [] = some (.branch keys) := by
    obtain ⟨keys, hkeys⟩ := hbranch
    refine ⟨keys, ?_⟩
    rw [KeyedTree.look_set hlook, if_neg (by simp)]
    exact hkeys
  refine { path := hpath, addresses := ⟨old, ?_, ?_⟩, new_value := ?_, others := fun p hp => ?_ }
  · rw [hparent, hkey, get_parent hm hlook]
    rfl
  · rw [hpath, leafAt_bond hm hbranch]
    exact hleaf
  · rw [hpath, leafAt_bond hm' hbranch', KeyedTree.leafAt_set hleaf, if_pos rfl]
  · rw [hpath] at hp
    rw [leafAt_bond hm' hbranch', leafAt_bond hm hbranch, KeyedTree.leafAt_set hleaf, if_neg hp]

end

/-- A tree of the same shape: it has leaves where the other has them. -/
structure SameLeaves (t t' : Json) : Prop where
  branch : ∃ keys, t'.look [] = some (.branch keys)
  leaf : ∀ p s, t.look p = some (.leaf s) → ∃ s', t'.look p = some (.leaf s')

/-- **Any saves**: the objects are still those of a bond with the same leaves, and the categories mirror it. -/
theorem mirrors_saves {cats : Categories} {isin : Value} {keys : List String} (nodup : keys.Nodup)
    {child : ∀ k ∈ keys, Json} (hproto : "__proto__" ∉ keys) {saves : List Save}
    (hshown : ∀ s ∈ saves, ∃ trail, (trail, s.leaf) ∈ leavesOf (items cats isin keys child)) :
    ∃ t', Mirrors cats t' (saves.foldl (handleSave cats) (rendered cats (.branch keys nodup child))) ∧
      SameLeaves (.branch keys nodup child) t' := by
  induction saves using List.reverseRecOn with
  | nil => exact ⟨_, mirrors_rendered hproto, ⟨keys, rfl⟩, fun _ s hs => ⟨s, hs⟩⟩
  | append_singleton saves s ih =>
      obtain ⟨t', hm, hsame⟩ := ih fun s' hs' => hshown s' (List.mem_append_left _ hs')
      obtain ⟨trail, hleaf⟩ := hshown s (by simp)
      obtain ⟨name, q, k, old, -, he, hlook⟩ := leaves_items nodup hleaf
      obtain ⟨old', hlook'⟩ := hsame.leaf _ _ hlook
      have hparent : s.leaf.parentObj = cats.parent q k := by
        rw [he]
        rfl
      have hkey : s.leaf.valKey = k := by
        rw [he]
        rfl
      rw [List.foldl_concat]
      refine ⟨_, mirrors_handleSave hm hlook' hparent hkey, ?_, fun p b hb => ?_⟩
      · obtain ⟨keys', hkeys'⟩ := hsame.branch
        refine ⟨keys', ?_⟩
        rw [KeyedTree.look_set hlook', if_neg (by simp)]
        exact hkeys'
      · rw [KeyedTree.look_set hlook']
        split
        · exact ⟨_, rfl⟩
        · exact hsame.leaf p b hb

/-- The tree of a bond is rendered whole, every key of the bond is in one category, and every save of a leaf it
    shows, after any others, is kept. -/
def EditsKept (cats : Categories) (t : Json) : Prop :=
  let h := rendered cats t
  ∃ is, (∀ fuel, t.size < fuel → objectToTreeItem h (h.get bond "isin") fuel [] (.object .categorized) = some is) ∧
    (∀ key ∈ t.keysAt [], ∃! c, c ∈ is ∧ key ∈ c.keys) ∧
    ∀ saves : List Save, (∀ s ∈ saves, ∃ trail, (trail, s.leaf) ∈ leavesOf is) →
      ∀ s trail, (trail, s.leaf) ∈ leavesOf is → Kept cats (saves.foldl (handleSave cats) h) trail s

/-- **Every bond without a key `__proto__` is shown and edited as it should be.** -/
theorem edits_kept (cats : Categories) (keys : List String) (nodup : keys.Nodup) (child : ∀ k ∈ keys, Json)
    (hproto : "__proto__" ∉ keys) : EditsKept cats (.branch keys nodup child) := by
  refine ⟨items cats _ keys child, fun fuel hfuel => objectToTreeItem_eq hproto _ hfuel,
    fun key hkey => existsUnique_category hkey, fun saves hsaves s trail hleaf => ?_⟩
  obtain ⟨t', hm, hsame⟩ := mirrors_saves nodup hproto hsaves
  obtain ⟨name, q, k, old, rfl, he, hlook⟩ := leaves_items nodup hleaf
  obtain ⟨old', hlook'⟩ := hsame.leaf _ _ hlook
  exact kept_of_mirrors hm hsame.branch hlook' he

theorem edits_kept_currency : EditsKept ⟨{"currency"}, ∅⟩
    (.branch ["isin", "currency"] (by decide) fun _ _ => .leaf (.string ['E', 'U', 'R'])) :=
  edits_kept ⟨{"currency"}, ∅⟩ ["isin", "currency"] (by decide) _ (by decide)

/-- The bond `{"__proto__": true}` is shown without its key: the category takes the value for a prototype, and
    ignores it. -/
theorem not_always_edits_kept : ¬ ∀ cats keys nodup child, EditsKept cats (.branch keys nodup child) := by
  intro h
  obtain ⟨is, hrender, hcategory, -⟩ :=
    h ⟨∅, ∅⟩ ["__proto__"] (List.nodup_singleton _) fun _ _ => .leaf (.boolean true)
  have hitems :
      some is = some [.treeItem "Economic_data" [], .treeItem "Credit_data" [], .treeItem "Trading_data" []] :=
    (hrender 5 (by decide)).symm
  obtain ⟨c, ⟨hc, hkey⟩, -⟩ := hcategory "__proto__" (List.mem_singleton_self _)
  rw [Option.some.inj hitems] at hc
  simp only [List.mem_cons, List.not_mem_nil, or_false] at hc
  rcases hc with rfl | rfl | rfl
  · simp [Item.keys] at hkey
  · simp [Item.keys] at hkey
  · simp [Item.keys] at hkey

end NewOrbit.Displayer.BondTree

import Mathlib.Data.Finset.Basic
import Mathlib.Logic.Function.Basic
import NewOrbit.Lib.Js
import NewOrbit.Lib.KeyedTree
import NewOrbit.Lib.LinkedMap

/-!
# `Displayer.BondTree` — the objects behind a bond tree, and what a save does to them

`Bond` copies the values of a bond into three category objects, from which the tree is made; the objects below are
shared. A save writes to the object the leaf was found in, which is a category for the values of the bond itself,
and `commitEdits` copies all of these back. As long as the categories mirror the bond (`Mirrors`), the objects are
those of the parsed bond with the new value at the leaf's path (`mirrors_handleSave`).
-/

namespace NewOrbit.Displayer.BondTree

/-! ## Objects

Objects live in a heap, by the place at which they came into being. What matters of JavaScript here is how a property
is looked up, which keys a loop goes through, and that an assignment to `__proto__` sets the prototype. -/

inductive Scalar where
  | null
  | boolean (b : Bool)
  | number (n : Js.Number)
  | string (s : List Char)
  deriving DecidableEq

/-- A JSON text, parsed. An array is an object whose keys are its indices. -/
abbrev Json := KeyedTree String Scalar

/-- The objects of one rendered tree: those of the parsed bond, by their path in it, and the four that `Bond`
    makes. -/
inductive Ref where
  | bond (path : List String)
  | economic
  | credit
  | trading
  | categorized
  deriving DecidableEq, Repr

/-- `builtin key` is what `Object.prototype` has at `key`, or `undefined` if it has nothing there. -/
inductive Value where
  | scalar (s : Scalar)
  | object (r : Ref)
  | undefined
  | builtin (key : String)
  deriving DecidableEq

/-- `typeof v === "object"`. `Object.prototype` has one object, the prototype that its `__proto__` gives. -/
def Value.isObject : Value → Bool
  | .scalar .null => true
  | .object _     => true
  | .builtin key  => key = "__proto__"
  | _             => false

/-- The prototype of an object: `Object.prototype`, unless another was set. That one is an object of the bond, whose
    own prototype is `Object.prototype`. -/
inductive Prototype where
  | root
  | null
  | object (r : Ref)
  deriving DecidableEq, Repr

structure Obj where
  props : LinkedMap String Value
  prototype : Prototype

abbrev Heap := Ref → Obj

/-- `{}` -/
def Obj.new : Obj := ⟨LinkedMap.empty, .root⟩

/-- The setter of `__proto__`. -/
def Obj.setPrototype (o : Obj) : Value → Obj
  | .object r     => { o with prototype := .object r }
  | .scalar .null => { o with prototype := .null }
  | .builtin key  => if key = "__proto__" then { o with prototype := .root } else o
  | _             => o

namespace Heap

/-- What an object inherits at a key. -/
def inherited (h : Heap) (r : Ref) (key : String) : Value :=
  match (h r).prototype with
  | .root      => .builtin key
  | .null      => .undefined
  | .object r' => ((h r').props.get key).getD (if key = "__proto__" then .object r' else .builtin key)

/-- `o[key]` -/
def get (h : Heap) (r : Ref) (key : String) : Value := ((h r).props.get key).getD (h.inherited r key)

/-- The keys of a loop `for (let key in o)`: its own, and those of an object that it inherits from. -/
def forIn (h : Heap) (r : Ref) : List String :=
  match (h r).prototype with
  | .object r' => (h r).props.keys ++ (h r').props.keys.filter (· ∉ (h r).props.keys)
  | _          => (h r).props.keys

/-- The object inherits the setter of `__proto__`. -/
def hasSetter (h : Heap) (r : Ref) : Bool :=
  match (h r).prototype with
  | .root      => true
  | .null      => false
  | .object r' => "__proto__" ∉ (h r').props.keys

/-- `o[key] = v` -/
def assign (h : Heap) (r : Ref) (key : String) (v : Value) : Heap :=
  Function.update h r <|
    if key ∉ (h r).props.keys ∧ key = "__proto__" ∧ h.hasSetter r then (h r).setPrototype v
    else { h r with props := (h r).props.put key v }

/-- The scalar at a path of own keys. -/
def leafAt (h : Heap) : Value → List String → Option Scalar
  | .scalar s, []     => some s
  | .object r, k :: p => ((h r).props.get k).bind fun v => h.leafAt v p
  | _,         _      => none

end Heap

/-- A value of the parsed bond, by its path. -/
def Value.parsed (path : List String) : KeyedTree.Label String Scalar → Value
  | .leaf s   => .scalar s
  | .branch _ => .object (.bond path)

def propsOf (path : List String) : Json → LinkedMap String Value
  | .leaf _                    => LinkedMap.empty
  | .branch keys nodup child =>
      { keys := keys, nodup := nodup, value := fun k h => Value.parsed (path ++ [k]) (child k h).label }

/-- The objects of a parsed bond. -/
def parse (bond : Json) : Heap
  | .bond path => ⟨((bond.get? path).map (propsOf path)).getD LinkedMap.empty, .root⟩
  | _          => Obj.new

/-! ## `Bond`

The rendering of a bond: the categories, the copying back of edits, and the tree items, each of which keeps a
reference to the object that its value was found in. -/

/-- The sets that `Bond` reads. -/
structure Categories where
  economic : Finset String
  credit : Finset String

def Categories.of (cats : Categories) (key : String) : Ref :=
  if key ∈ cats.economic then .economic else if key ∈ cats.credit then .credit else .trading

def bond : Ref := .bond []

/-- The objects of the categories, and the one that has them. -/
def categorize (cats : Categories) (h : Heap) : Heap :=
  let h : Heap := Function.update (Function.update (Function.update h .economic Obj.new) .credit Obj.new)
    .trading Obj.new
  let h := (h.forIn bond).foldl (fun h key => h.assign (cats.of key) key (h.get bond key)) h
  Function.update h .categorized
    { props := ((LinkedMap.empty.put "Economic_data" (.object .economic)).put "Credit_data" (.object .credit)).put
        "Trading_data" (.object .trading)
      prototype := .root }

def commitEdits (cats : Categories) (h : Heap) : Heap :=
  (h.forIn bond).foldl (fun h key => h.assign bond key (h.get (cats.of key) key)) h

inductive EditIcon where
  | plain
  | disabled
  deriving DecidableEq, Repr

structure EditableVal where
  valKey : String
  parentObj : Ref
  path : List String
  isin : Value
  endIcon : EditIcon
  deriving DecidableEq

inductive Item where
  | value (v : Value)
  | editableVal (e : EditableVal)
  | treeItem (label : String) (children : List Item)

/-- The item of one key, the items below it being those of `below`. -/
def treeItem (h : Heap) (isin : Value) (below : List String → Value → Option (List Item)) (path : List String)
    (root : Ref) (objKey : String) : Option Item :=
  let newPath := path ++ [objKey]
  if !(h.get root objKey).isObject then
    some (.editableVal
      { valKey := objKey, parentObj := root, path := newPath, isin := isin
        endIcon := if objKey = "longDescription" ∨ objKey = "couponCurrency" then .plain else .disabled })
  else (below newPath (h.get root objKey)).map (.treeItem objKey)

/-- `none` is a call that goes deeper than the fuel. -/
def objectToTreeItem (h : Heap) (isin : Value) : ℕ → List String → Value → Option (List Item)
  | 0,        _,    _          => none
  | fuel + 1, path, .object r  => (h.forIn r).mapM (treeItem h isin (objectToTreeItem h isin fuel) path r)
  | _ + 1,    _,    root       => if root.isObject then some [] else some [.value root]

/-! ## `EditableVal`

What a leaf does when its new value is saved and the server has answered. -/

structure Save where
  leaf : EditableVal
  newVal : Scalar

structure Request where
  isin : Value
  value : Scalar
  path : List String

def Save.request (s : Save) : Request := ⟨s.leaf.isin, s.newVal, s.leaf.path.drop 1⟩

/-- What a save does when it is answered. -/
def handleSave (cats : Categories) (h : Heap) (s : Save) : Heap :=
  commitEdits cats (h.assign s.leaf.parentObj s.leaf.valKey (.scalar s.newVal))

/-! ## The objects mirror the bond

The values of the bond itself are in two objects, the bond and a category; deeper values are in one. A save writes one
of the two copies, and `commitEdits` makes them agree again. -/

/-- The object in which the tree finds the last key of a path. -/
def Categories.parent (cats : Categories) (path : List String) (key : String) : Ref :=
  if path = [] then cats.of key else .bond path

/-- The objects are those of the parsed bond `t`, but for the values of the bond itself, which the categories have. -/
structure Written (cats : Categories) (t : Json) (h : Heap) : Prop where
  root : ∀ r, (h r).prototype = .root
  keys : ∀ p, (h (.bond p)).props.keys = t.keysAt p
  get : ∀ p k, p ≠ [] → (h (.bond p)).props.get k = (t.look (p ++ [k])).map (Value.parsed (p ++ [k]))
  category : ∀ k ∈ t.keysAt [], (h (cats.of k)).props.get k = (t.look [k]).map (Value.parsed [k])

/-- The objects are those of the parsed bond `t`, and each category has the values of its keys. -/
structure Mirrors (cats : Categories) (t : Json) (h : Heap) : Prop extends Written cats t h where
  get_bond : ∀ k, (h bond).props.get k = (t.look [k]).map (Value.parsed [k])

theorem of_eq_or (cats : Categories) (key : String) :
    cats.of key = .economic ∨ cats.of key = .credit ∨ cats.of key = .trading := by
  unfold Categories.of
  split
  · exact Or.inl rfl
  · split
    · exact Or.inr (Or.inl rfl)
    · exact Or.inr (Or.inr rfl)

theorem of_ne_bond (cats : Categories) (key : String) (path : List String) : cats.of key ≠ .bond path := by
  rcases of_eq_or cats key with h | h | h <;> simp [h]

/-! ### Assignments

An assignment to an own key is a `put`, whatever the key is. As all keys of a bond are in place once the categories
are filled, saves do nothing else. -/

/-- An entry is made or changed. -/
def Heap.put (h : Heap) (r : Ref) (key : String) (v : Value) : Heap :=
  Function.update h r { h r with props := (h r).props.put key v }

/-- An own key is written in its place. -/
theorem assign_of_mem {h : Heap} {r : Ref} {key : String} (hkey : key ∈ (h r).props.keys) (v : Value) :
    h.assign r key v = h.put r key v := by
  rw [Heap.assign, if_neg (fun hc => hc.1 hkey), Heap.put]

/-- An assignment makes or changes an entry, at every key but `__proto__`. -/
theorem assign_of_ne {key : String} (hkey : key ≠ "__proto__") (h : Heap) (r : Ref) (v : Value) :
    h.assign r key v = h.put r key v := by
  rw [Heap.assign, if_neg (fun hc => hkey hc.2.1), Heap.put]

section
variable (h : Heap) (r : Ref) (key : String) (v : Value)

theorem put_of_ne {r' : Ref} (hr : r' ≠ r) : h.put r key v r' = h r' := Function.update_of_ne hr _ h

@[simp] theorem prototype_put (r' : Ref) : (h.put r key v r').prototype = (h r').prototype := by
  by_cases hr : r' = r
  · subst hr
    rw [Heap.put, Function.update_self]
  · rw [put_of_ne h r key v hr]

@[simp] theorem get_put (r' : Ref) (key' : String) :
    (h.put r key v r').props.get key' = if r' = r ∧ key' = key then some v else (h r').props.get key' := by
  by_cases hr : r' = r
  · subst hr
    rw [Heap.put, Function.update_self, LinkedMap.get_put]
    simp
  · rw [put_of_ne h r key v hr, if_neg (fun hc => hr hc.1)]

/-- A new key comes behind the others. -/
theorem keys_put (r' : Ref) : (h.put r key v r').props.keys =
    (h r').props.keys ++ if r' = r ∧ key ∉ (h r').props.keys then [key] else [] := by
  by_cases hr : r' = r
  · subst hr
    rw [Heap.put, Function.update_self]
    show (if key ∈ (h r').props.keys then _ else _) = _
    by_cases hkey : key ∈ (h r').props.keys <;> simp [hkey]
  · simp [put_of_ne h r key v hr, hr]

end

theorem get_of_own {h : Heap} {r : Ref} {key : String} {v : Value} (hget : (h r).props.get key = some v) :
    h.get r key = v := by
  rw [Heap.get, hget]
  rfl

theorem forIn_of_root {h : Heap} {r : Ref} (hroot : (h r).prototype = .root) : h.forIn r = (h r).props.keys := by
  rw [Heap.forIn, hroot]

theorem get_of_root {h : Heap} {r : Ref} (hroot : (h r).prototype = .root) (key : String) :
    h.get r key = ((h r).props.get key).getD (.builtin key) := by
  rw [Heap.get, Heap.inherited, hroot]

/-- **Committing the edits**: each of the keys has the value of its category, and nothing else has changed. -/
theorem commit_keys (cats : Categories) {h : Heap} (hroot : ∀ r, (h r).prototype = .root) {l : List String}
    (hl : ∀ k ∈ l, k ∈ (h bond).props.keys) {h' : Heap}
    (hh' : l.foldl (fun h key => h.assign bond key (h.get (cats.of key) key)) h = h') :
    (∀ r, r ≠ bond → h' r = h r) ∧ (h' bond).props.keys = (h bond).props.keys ∧ (h' bond).prototype = .root ∧
      ∀ k, (h' bond).props.get k = if k ∈ l then some (h.get (cats.of k) k) else (h bond).props.get k := by
  induction l using List.reverseRecOn generalizing h' with
  | nil =>
      subst hh'
      exact ⟨fun _ _ => rfl, rfl, hroot bond, fun k => by simp⟩
  | append_singleton l k ih =>
      rw [List.foldl_concat] at hh'
      obtain ⟨hother, hkeys, hproto, hget⟩ := ih (fun k' hk' => hl k' (List.mem_append_left _ hk')) rfl
      generalize hm : l.foldl (fun h key => h.assign bond key (h.get (cats.of key) key)) h = m at *
      have hk : k ∈ (m bond).props.keys := hkeys ▸ hl k (by simp)
      have hcat : m.get (cats.of k) k = h.get (cats.of k) k := by
        have heq := hother _ (of_ne_bond cats k [])
        rw [get_of_root (heq ▸ hroot _), get_of_root (hroot _), heq]
      rw [assign_of_mem hk, hcat] at hh'
      subst hh'
      refine ⟨fun r hr => ?_, ?_, ?_, fun k' => ?_⟩
      · rw [put_of_ne _ _ _ _ hr]
        exact hother r hr
      · simpa [keys_put, hk] using hkeys
      · simpa using hproto
      · rw [get_put, hget]
        by_cases hk' : k' = k
        · subst hk'
          simp
        · simp [hk']

theorem mirrors_commitEdits {cats : Categories} {t : Json} {h : Heap} (hw : Written cats t h) :
    Mirrors cats t (commitEdits cats h) := by
  have hcommit : (h bond).props.keys.foldl (fun h key => h.assign bond key (h.get (cats.of key) key)) h =
      commitEdits cats h := by
    rw [commitEdits, forIn_of_root (hw.root bond)]
  obtain ⟨hother, hkeys, hproto, hget⟩ := commit_keys cats hw.root (fun _ hk => hk) hcommit
  have hcat : ∀ k, commitEdits cats h (cats.of k) = h (cats.of k) := fun k => hother _ (of_ne_bond cats k [])
  refine { root := fun r => ?_, keys := fun p => ?_, get := fun p k hp => ?_, category := fun k hk => ?_,
           get_bond := fun k => ?_ }
  · by_cases hr : r = bond
    · rw [hr]
      exact hproto
    · rw [hother r hr]
      exact hw.root r
  · by_cases hp : p = []
    · subst hp
      exact hkeys.trans (hw.keys [])
    · rw [hother (.bond p) (fun hb => hp (Ref.bond.inj hb))]
      exact hw.keys p
  · rw [hother (.bond p) (fun hb => hp (Ref.bond.inj hb))]
    exact hw.get p k hp
  · rw [hcat]
    exact hw.category k hk
  · have hmem : k ∈ (h bond).props.keys ↔ k ∈ t.keysAt [] := by rw [← hw.keys []]; rfl
    rw [hget]
    by_cases hk : k ∈ t.keysAt []
    · obtain ⟨label, hlabel⟩ : ∃ label, t.look [k] = some label := KeyedTree.exists_look_of_mem_keysAt hk
      have hown := hw.category k hk
      rw [hlabel, Option.map_some] at hown ⊢
      rw [if_pos (hmem.mpr hk), get_of_own hown]
    · have hnone : t.look [k] = none := KeyedTree.look_snoc_eq_none_iff.mpr hk
      rw [if_neg (mt hmem.mp hk), hnone, LinkedMap.get_of_notMem (mt hmem.mp hk)]
      rfl

section
variable {cats : Categories} {t : Json} {h : Heap} {q : List String} {k : String} {old : Scalar}

/-- The object in which a leaf is found has its key. -/
theorem mem_keys_parent (hm : Mirrors cats t h) (hleaf : t.look (q ++ [k]) = some (.leaf old)) :
    k ∈ (h (cats.parent q k)).props.keys := by
  have hk := KeyedTree.mem_keysAt_of_look hleaf
  unfold Categories.parent
  split
  · rename_i hq
    subst hq
    have hown := hm.category k hk
    rw [List.nil_append] at hleaf
    rw [hleaf] at hown
    exact LinkedMap.mem_keys_of_get hown
  · rw [hm.keys]
    exact hk

/-- Another place in the tree is another key, or another object. -/
theorem parent_eq_iff {p : List String} {k' : String} :
    cats.parent p k' = cats.parent q k ∧ k' = k ↔ p ++ [k'] = q ++ [k] := by
  rw [List.append_singleton_inj]
  unfold Categories.parent
  constructor
  · rintro ⟨hparent, rfl⟩
    refine ⟨?_, rfl⟩
    by_cases hp : p = []
    · by_cases hq : q = []
      · rw [hp, hq]
      · rw [if_pos hp, if_neg hq] at hparent
        exact absurd hparent (of_ne_bond cats k' q)
    · by_cases hq : q = []
      · rw [if_neg hp, if_pos hq] at hparent
        exact absurd hparent.symm (of_ne_bond cats k' p)
      · rw [if_neg hp, if_neg hq] at hparent
        exact Ref.bond.inj hparent
  · rintro ⟨rfl, rfl⟩
    exact ⟨rfl, rfl⟩

theorem written_assign (hm : Mirrors cats t h) (hleaf : t.look (q ++ [k]) = some (.leaf old)) (v : Scalar) :
    Written cats (t.set (q ++ [k]) v) (h.assign (cats.parent q k) k (.scalar v)) := by
  have hown := mem_keys_parent hm hleaf
  rw [assign_of_mem hown]
  have hlook : ∀ p k',
      (h (cats.parent p k')).props.get k' = (t.look (p ++ [k'])).map (Value.parsed (p ++ [k'])) →
      ((h.put (cats.parent q k) k (.scalar v)) (cats.parent p k')).props.get k' =
        ((t.set (q ++ [k]) v).look (p ++ [k'])).map (Value.parsed (p ++ [k'])) := by
    intro p k' hget
    rw [get_put, KeyedTree.look_set hleaf]
    by_cases hsame : p ++ [k'] = q ++ [k]
    · rw [if_pos (parent_eq_iff.mpr hsame), if_pos hsame]
      rfl
    · rw [if_neg (fun hc => hsame (parent_eq_iff.mp hc)), if_neg hsame]
      exact hget
  refine { root := fun r => ?_, keys := fun p => ?_, get := fun p k' hp => ?_, category := fun k' hk' => ?_ }
  · rw [prototype_put]
    exact hm.root r
  · rw [KeyedTree.keysAt_set hleaf, keys_put, if_neg (fun hc => hc.2 (hc.1 ▸ hown)), List.append_nil]
    exact hm.keys p
  · have hparent : cats.parent p k' = .bond p := if_neg hp
    rw [← hparent]
    exact hlook p k' (by rw [hparent]; exact hm.get p k' hp)
  · rw [KeyedTree.keysAt_set hleaf] at hk'
    exact hlook [] k' (hm.category k' hk')

/-- **A save puts its value at its leaf, in the bond and in the categories.** -/
theorem mirrors_handleSave (hm : Mirrors cats t h) (hleaf : t.look (q ++ [k]) = some (.leaf old)) {s : Save}
    (hparent : s.leaf.parentObj = cats.parent q k) (hkey : s.leaf.valKey = k) :
    Mirrors cats (t.set (q ++ [k]) s.newVal) (handleSave cats h s) := by
  rw [handleSave, hparent, hkey]
  exact mirrors_commitEdits (written_assign hm hleaf s.newVal)

end

/-- The leaves of the bond are those of its objects. -/
theorem leafAt_parsed {cats : Categories} {t : Json} {h : Heap} (hm : Mirrors cats t h) (q : List String)
    {p : List String} {l : KeyedTree.Label String Scalar} (hl : t.look p = some l) :
    h.leafAt (Value.parsed p l) q = t.leafAt (p ++ q) := by
  induction q generalizing p l with
  | nil =>
      rw [List.append_nil, KeyedTree.leafAt, hl]
      cases l <;> rfl
  | cons k q ih =>
      cases l with
      | leaf s =>
          rw [KeyedTree.leafAt, KeyedTree.look_append_of_leaf hl]
          rfl
      | branch keys =>
          have hget : (h (.bond p)).props.get k = (t.look (p ++ [k])).map (Value.parsed (p ++ [k])) := by
            by_cases hp : p = []
            · subst hp
              exact hm.get_bond k
            · exact hm.get p k hp
          show (((h (.bond p)).props.get k).bind fun v => h.leafAt v q) = _
          rw [hget]
          cases hk : t.look (p ++ [k]) with
          | none =>
              have hnone := KeyedTree.look_append_of_none hk q
              rw [List.append_assoc, List.singleton_append] at hnone
              rw [KeyedTree.leafAt, hnone]
              rfl
          | some l' =>
              show h.leafAt (Value.parsed (p ++ [k]) l') q = _
              rw [ih hk, List.append_assoc, List.singleton_append]

end NewOrbit.Displayer.BondTree

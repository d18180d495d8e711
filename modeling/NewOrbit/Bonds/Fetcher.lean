import Mathlib.Algebra.Group.Int.Defs
import Mathlib.Algebra.Group.Nat.Defs
import Mathlib.Data.List.Infix
import NewOrbit.Bonds.Collection

/-!
# `Bonds.Fetcher` — the search of the instrument server

`searchLongDes` turns a filter and an inclusive range of positions into a query with `skip` and `limit`, the limit
being `endIndex - startIndex + 1` in 32 bits. Mongo takes the limit 0 for no limit and a negative one for a positive
one whose result comes in one batch, so a range that ends before it starts is not refused, and the longest range
there is has a limit that wraps around (`search_ranged_iff`).
-/

namespace NewOrbit.Bonds.Fetcher

inductive Failure where
  | NullPointerException
  | MongoQueryException
  deriving DecidableEq, Repr

/-- `{field: {$regex: regex}}` -/
structure RegexQuery where
  field : String
  regex : String
  deriving DecidableEq, Repr

/-- What the search needs of a Mongo server: its regular expressions (`none` where the pattern is not one), which
    are looked for anywhere in a text, and how many documents of a result fit in its first batch. -/
structure Server where
  regex : String → Option (String → Bool)
  batch : List Stored → ℕ

namespace Server

/-- A `$regex` condition on a field: a text, or an array with a text in it. -/
def holds (found : String → Bool) : Option Value → Bool
  | some (.string t)  => found t
  | some (.array _ f) => (List.finRange _).any fun i => match f i with
      | .string t => found t
      | _         => false
  | _                 => false

/-- `find(and(q, r))`, the documents in their natural order. -/
def find (server : Server) (q r : RegexQuery) (bonds : List Stored) : Except Failure (List Stored) :=
  match server.regex q.regex, server.regex r.regex with
  | some found, some found' =>
      .ok (bonds.filter fun s => holds found (s.read.get q.field) && holds found' (s.read.get r.field))
  | _, _ => .error .MongoQueryException

/-- What the cursor of `.skip(skip).limit(limit)` gives. -/
def cursor (server : Server) (skip limit : ℤ) (matching : List Stored) : Except Failure (List Stored) :=
  if skip < 0 then .error .MongoQueryException
  else
    let rest := matching.drop skip.toNat
    if limit = 0 then .ok rest
    else if 0 < limit then .ok (rest.take limit.toNat)
    else
      let first := rest.take limit.natAbs
      .ok (first.take (server.batch first))

end Server

/-- A query parameter that is not given is null. -/
def orNull {α : Type} : Option α → Except Failure α
  | some a => .ok a
  | none   => .error .NullPointerException

def regexQuery (field : String) (pattern : Option String) : Except Failure RegexQuery := do
  let pattern ← orNull pattern
  return ⟨field, pattern ++ ".*"⟩

/-- `GET /api/filter` -/
def searchLongDes (server : Server) (bonds : List Stored) (longDes initialISIN : Option String)
    (startIndex endIndex : Option (BitVec 32)) : Except Failure (List Document) := do
  let longDesQuery ← regexQuery "longDescription" longDes
  let initialISINQuery ← regexQuery "isin" initialISIN
  let startIndex ← orNull startIndex
  let endIndex ← orNull endIndex
  let iterable ← server.find longDesQuery initialISINQuery bonds
  let docList ← server.cursor startIndex.toInt (endIndex - startIndex + 1).toInt iterable
  return docList.map Stored.read

/-! ## The range

The limit is the length of the range up to a multiple of 2^32. What the cursor gives is compared with the range by the
three kinds of limits that Mongo knows: none, a number, and a negative one. -/

/-- The documents at the positions from `startIndex` to `endIndex`, or an error where there is no such range. -/
def Ranged (matching : List Stored) (startIndex endIndex : BitVec 32) (result : Except Failure (List Document)) :
    Prop :=
  if startIndex.toInt ≤ endIndex.toInt then
    result = .ok (((matching.drop startIndex.toInt.toNat).take
      (endIndex.toInt - startIndex.toInt + 1).toNat).map Stored.read)
  else ∃ e, result = .error e

section
variable {server : Server} {bonds matching : List Stored} {longDes initialISIN : String}
  {startIndex endIndex : BitVec 32}

theorem search_eq (hfind : server.find ⟨"longDescription", longDes ++ ".*"⟩ ⟨"isin", initialISIN ++ ".*"⟩ bonds =
      .ok matching) :
    searchLongDes server bonds (some longDes) (some initialISIN) (some startIndex) (some endIndex) =
      (server.cursor startIndex.toInt (endIndex - startIndex + 1).toInt matching).map fun l => l.map Stored.read := by
  show (server.find _ _ _ >>= fun iterable => _) = _
  rw [hfind]
  show (server.cursor _ _ _).bind _ = _
  cases server.cursor _ _ _ <;> rfl

/-- The limit of a range is its length, unless the range is the longest there is. -/
theorem limit_eq (h0 : 0 ≤ startIndex.toInt) (hle : startIndex.toInt ≤ endIndex.toInt) :
    (endIndex - startIndex + 1).toInt = if startIndex.toInt = 0 ∧ endIndex.toInt = 2 ^ 31 - 1 then -2 ^ 31
      else endIndex.toInt - startIndex.toInt + 1 := by
  have hlt := BitVec.toInt_lt (x := endIndex)
  have hone : (1 : BitVec 32).toInt = 1 := rfl
  have hsub : (endIndex - startIndex).toInt = endIndex.toInt - startIndex.toInt := by
    rw [BitVec.toInt_sub]
    exact Int.bmod_eq_of_le (by omega) (by omega)
  rw [BitVec.toInt_add, hsub, hone]
  split
  · rename_i h
    rw [h.1, h.2]
    rfl
  · rename_i h
    exact Int.bmod_eq_of_le (by omega) (by omega)

/-- A start that is not negative never fails. -/
theorem cursor_isOk (server : Server) (matching : List Stored) (h0 : 0 ≤ startIndex.toInt) (limit : ℤ) :
    ∃ l, server.cursor startIndex.toInt limit matching = .ok l := by
  unfold Server.cursor
  rw [if_neg (by omega)]
  dsimp only
  split
  · exact ⟨_, rfl⟩
  · split
    · exact ⟨_, rfl⟩
    · exact ⟨_, rfl⟩

/-- The first `n` documents come in one batch. -/
def FitsBatch (server : Server) (matching : List Stored) (n : ℕ) : Prop :=
  (matching.take n).length ≤ server.batch (matching.take n)

/-- The longest range: one batch of it. -/
theorem cursor_long : server.cursor 0 (-2 ^ 31) matching =
    .ok ((matching.take (2 ^ 31)).take (server.batch (matching.take (2 ^ 31)))) := by
  have hlimit : ¬ (-2 ^ 31 : ℤ) = 0 ∧ ¬ (0 : ℤ) < -2 ^ 31 := by decide
  have habs : (-2 ^ 31 : ℤ).natAbs = 2 ^ 31 := by decide
  rw [Server.cursor, if_neg (by decide)]
  dsimp only
  rw [if_neg hlimit.1, if_neg hlimit.2, habs, Int.toNat_zero, List.drop_zero]

/-- A part from the start is the whole exactly when it is long enough. -/
theorem map_take_eq_iff {α β : Type} (f : α → β) (l : List α) (n : ℕ) :
    (l.take n).map f = l.map f ↔ l.length ≤ n := by
  constructor
  · intro h
    have hlen := congrArg List.length h
    rw [List.length_map, List.length_map, List.length_take] at hlen
    omega
  · intro h
    rw [List.take_of_length_le h]

end

/-- **A search returns its range exactly when the range does not end before it starts, and is not the longest
    there is**, or if it is, all of it fits in one batch. -/
theorem search_ranged_iff (server : Server) (bonds matching : List Stored) (longDes initialISIN : String)
    (startIndex endIndex : BitVec 32)
    (hfind : server.find ⟨"longDescription", longDes ++ ".*"⟩ ⟨"isin", initialISIN ++ ".*"⟩ bonds = .ok matching)
    (h0 : 0 ≤ startIndex.toInt) :
    Ranged matching startIndex endIndex
        (searchLongDes server bonds (some longDes) (some initialISIN) (some startIndex) (some endIndex)) ↔
      startIndex.toInt ≤ endIndex.toInt ∧
        (startIndex.toInt = 0 → endIndex.toInt = 2 ^ 31 - 1 → FitsBatch server matching (2 ^ 31)) := by
  rw [Ranged, search_eq hfind]
  by_cases hle : startIndex.toInt ≤ endIndex.toInt
  · rw [if_pos hle, and_iff_right hle, limit_eq h0 hle]
    by_cases hlong : startIndex.toInt = 0 ∧ endIndex.toInt = 2 ^ 31 - 1
    · obtain ⟨hs, he⟩ := hlong
      rw [if_pos ⟨hs, he⟩, hs, he, cursor_long]
      have hlength : (2 ^ 31 - 1 - 0 + 1 : ℤ).toNat = 2 ^ 31 := by decide
      simp only [Except.map, Except.ok.injEq, forall_const, hlength, Int.toNat_zero, List.drop_zero, map_take_eq_iff]
      rfl
    · have hrange : server.cursor startIndex.toInt (endIndex.toInt - startIndex.toInt + 1) matching =
          .ok ((matching.drop startIndex.toInt.toNat).take (endIndex.toInt - startIndex.toInt + 1).toNat) := by
        rw [Server.cursor, if_neg (by omega)]
        dsimp only
        rw [if_neg (by omega), if_pos (by omega)]
      rw [if_neg hlong, hrange]
      simp only [Except.map, true_iff]
      exact fun hs he => absurd ⟨hs, he⟩ hlong
  · rw [if_neg hle]
    obtain ⟨l, hl⟩ := cursor_isOk server matching h0 (endIndex - startIndex + 1).toInt
    rw [hl]
    simp [Except.map, hle]

/-! ### A few bonds -/

/-- The characters that mean something else than themselves in a pattern. -/
def metacharacters : List Char := ['\\', '^', '$', '.', '[', '|', '(', ')', '?', '*', '+', '{', Char.ofNat 0]

def Ordinary (text : String) : Prop := ∀ c ∈ text.toList, c ∉ metacharacters

instance (text : String) : Decidable (Ordinary text) := List.decidableBAll _ text.toList

/-- A server for concrete runs, which knows the patterns of the search for ordinary texts. -/
def plainServer : Server where
  regex pattern :=
    let text := String.ofList (pattern.toList.take (pattern.toList.length - 2))
    if pattern = text ++ ".*" ∧ Ordinary text then some fun t => text.toList <:+: t.toList else none
  batch _ := 101

def bond (id : BitVec 96) (isin longDescription : String) : Stored :=
  Stored.ofDocument id ((LinkedMap.empty.put "isin" (.string isin)).put "longDescription" (.string longDescription))

def sampleBond : Stored := bond 1 "DE0001141760" "BUNDESOBLIGATION"

def matchingBonds : List Stored :=
  [bond 2 "DE0001135275" "BUNDESANLEIHE", sampleBond, bond 5 "DE0001104776" "BUNDESSCHATZANWEISUNG",
   bond 6 "DE0001102309" "BUNDESANLEIHE"]

/-- One is of another country, and one has another description. -/
def otherBonds : List Stored := [bond 3 "AT0000A1FAP5" "BUNDESANLEIHE", bond 4 "DE0001030567" "LANDESANLEIHE"]

/-- Four of six bonds match, and the range is the two in the middle. -/
theorem search_ranged_iff_first :
    Ranged matchingBonds 1 2
      (searchLongDes plainServer (otherBonds ++ matchingBonds) (some "BUNDES") (some "DE") (some 1) (some 2)) := by
  refine (search_ranged_iff plainServer (otherBonds ++ matchingBonds) matchingBonds "BUNDES" "DE" 1 2 ?_
    (by decide)).mpr ⟨by decide, fun h => absurd h (by decide)⟩
  rfl

/-- The range from 1 to 0 is answered with every bond from the second on. -/
theorem not_always_ranged : ¬ ∀ server bonds matching longDes initialISIN startIndex endIndex,
    Server.find server ⟨"longDescription", longDes ++ ".*"⟩ ⟨"isin", initialISIN ++ ".*"⟩ bonds = .ok matching →
      0 ≤ startIndex.toInt → Ranged matching startIndex endIndex
        (searchLongDes server bonds (some longDes) (some initialISIN) (some startIndex) (some endIndex)) := by
  intro h
  have hranged := h plainServer [sampleBond, sampleBond] [sampleBond, sampleBond] "" "" 1 0 rfl (by decide)
  have hdata : searchLongDes plainServer [sampleBond, sampleBond] (some "") (some "") (some 1) (some 0) =
      .ok [sampleBond.read] := rfl
  rw [Ranged, if_neg (by decide), hdata] at hranged
  obtain ⟨e, he⟩ := hranged
  cases he

end NewOrbit.Bonds.Fetcher

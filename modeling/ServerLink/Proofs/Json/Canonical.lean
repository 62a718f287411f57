import ServerLink.Proofs.Json.Shape
import ServerLink.Proofs.Table

/-!
# Values as they are read

`Json.canonical` is a value with the members of its objects in the order in which the reader keeps
them; under every key it shows what the value shows, itself in that order (`canonical_object`).
-/

namespace ServerLink.Json

mutual

/-- The value with the members of every object in the reader's order. -/
def canonical : Json → Json
  | .null => .null
  | .bool b => .bool b
  | .number n => .number n
  | .string s => .string s
  | .array vs => .array (canonicalItems vs)
  | .object ms => ofMembers (canonicalMembers ms)

def canonicalItems : List Json → List Json
  | [] => []
  | v :: vs => canonical v :: canonicalItems vs

def canonicalMembers : List (String × Json) → List (String × Json)
  | [] => []
  | (k, v) :: ms => (k, canonical v) :: canonicalMembers ms

end

theorem keys_canonicalMembers (ms : List (String × Json)) :
    Table.keys (canonicalMembers ms) = Table.keys ms := by
  induction ms with
  | nil => rfl
  | cons m ms ih =>
    rw [Table.keys, Table.keys] at ih
    simp only [canonicalMembers, Table.keys, List.map_cons, ih]

theorem lookup_canonicalMembers (ms : List (String × Json)) (k : String) :
    (canonicalMembers ms).lookup k = (ms.lookup k).map canonical := by
  induction ms with
  | nil => rfl
  | cons m ms ih =>
    obtain ⟨l, v⟩ := m
    simp only [canonicalMembers, List.lookup_cons]
    cases k == l
    · exact ih
    · rfl

/-- Members with different keys are put one on top of the other. -/
theorem foldl_of_nodup {put : List (String × Json) → String × Json → List (String × Json)}
    (hput : ∀ kept m, (∀ k ∈ kept, k.1 ≠ m.1) → put kept m = m :: kept)
    {ms : List (String × Json)} (h : (Table.keys ms).Nodup) (kept : List (String × Json))
    (hkept : ∀ k ∈ kept, ∀ m ∈ ms, k.1 ≠ m.1) : ms.foldl put kept = ms.reverse ++ kept := by
  induction ms generalizing kept with
  | nil => rfl
  | cons m ms ih =>
    simp only [Table.keys, List.map_cons, List.nodup_cons, List.mem_map, not_exists, not_and] at h
    rw [List.foldl_cons, hput kept m fun k hk => hkept k hk m List.mem_cons_self, ih h.2,
      List.reverse_cons, List.append_assoc]
    · rfl
    · intro k hk n hn
      rcases List.mem_cons.1 hk with rfl | hk
      · exact fun he => h.1 n hn he.symm
      · exact hkept k hk n (List.mem_cons_of_mem _ hn)

theorem lastOfEach_of_nodup {ms : List (String × Json)} (h : (Table.keys ms).Nodup) :
    lastOfEach ms = ms := by
  rw [lastOfEach, foldl_of_nodup ?_ h [] (by simp), List.append_nil, List.reverse_reverse]
  intro kept m hkept
  cases kept with
  | nil => rfl
  | cons k rest => exact if_neg (hkept k List.mem_cons_self)

/-- An object shows its members whatever their order, if their keys are different. -/
theorem ofMembers_of_nodup {ms : List (String × Json)} (h : (Table.keys ms).Nodup) :
    ∃ ms', ofMembers ms = .object ms' ∧ ∀ k, ms'.lookup k = ms.lookup k := by
  have hperm : (ms.mergeSort fun a b => a.1 ≤ b.1).Perm ms := List.mergeSort_perm _ _
  have hsorted : (Table.keys (ms.mergeSort fun a b => a.1 ≤ b.1)).Nodup :=
    (List.Perm.nodup_iff (hperm.map Prod.fst)).2 h
  refine ⟨_, by rw [ofMembers, lastOfEach_of_nodup hsorted], fun k => Option.ext fun v => ?_⟩
  constructor
  · exact fun hv => Table.lookup_of_mem h (hperm.mem_iff.1 (Table.mem_of_lookup hv))
  · exact fun hv => Table.lookup_of_mem hsorted (hperm.mem_iff.2 (Table.mem_of_lookup hv))

theorem canonical_object {ms : List (String × Json)} (h : (Table.keys ms).Nodup) :
    ∃ ms', canonical (.object ms) = .object ms' ∧
      ∀ k, ms'.lookup k = (ms.lookup k).map canonical := by
  obtain ⟨ms', hms', hlookup⟩ := ofMembers_of_nodup <|
    show (Table.keys (canonicalMembers ms)).Nodup by rwa [keys_canonicalMembers]
  exact ⟨ms', hms', fun k => (hlookup k).trans (lookup_canonicalMembers ms k)⟩

/-- Puts the members of objects in an order of its own, and changes nothing else. -/
structure Arranges (arrange : Json → Json) : Prop where
  null : arrange .null = .null
  number : ∀ n, arrange (.number n) = .number n
  string : ∀ s, arrange (.string s) = .string s
  object : ∀ ms, (Table.keys ms).Nodup →
    ∃ ms', arrange (.object ms) = .object ms' ∧ ∀ k, ms'.lookup k = (ms.lookup k).map arrange

theorem Arranges.ofInt {arrange : Json → Json} (ha : Arranges arrange) (i : Int) :
    arrange (.ofInt i) = .ofInt i := by
  unfold Json.ofInt
  cases Number.ofInt? i with
  | none => exact ha.null
  | some n => exact ha.number n

/-- Under every key an arranged object shows what the object shows, arranged itself. -/
theorem Arranges.lookup {arrange : Json → Json} (ha : Arranges arrange) {v : Json}
    {ms : List (String × Json)} (hv : v = .object ms) (h : (Table.keys ms).Nodup) :
    ∃ ms', arrange v = .object ms' ∧ ∀ k, ms'.lookup k = (v.get? k).map arrange := by
  rw [hv]
  exact ha.object ms h

theorem Arranges.id : Arranges fun v => v :=
  ⟨rfl, fun _ => rfl, fun _ => rfl, fun ms _ => ⟨ms, rfl, fun k => by simp⟩⟩

theorem canonical_arranges : Arranges canonical :=
  ⟨rfl, fun _ => rfl, fun _ => rfl, fun _ h => canonical_object h⟩

end ServerLink.Json

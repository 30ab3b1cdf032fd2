import Mathlib.Data.List.AList

/-!
# Association lists with values of one type

What a `std::map` with a fixed value type offers beyond lookup: a loop over its
values, an update in place, and an insertion that keeps an entry which is there
already. `AllValues` is an invariant of the values, with a rule for each
operation.
-/

namespace Dls2.Assoc

universe u v

variable {Key : Type u} {Value : Type v}

/-- Keys are unique; the order of the entries carries no meaning. -/
abbrev Map (Key : Type u) (Value : Type v) : Type (max u v) := AList fun _ : Key => Value

/-- Replace every value, keeping its key. -/
def mapValues (change : Key → Value → Value) (map : Map Key Value) : Map Key Value where
  entries := map.entries.map (.map id change)
  nodupKeys := map.nodupKeys.map₂ change

variable [DecidableEq Key]

@[simp] theorem lookup_mapValues (change : Key → Value → Value) (map : Map Key Value)
    (key : Key) : (mapValues change map).lookup key = (map.lookup key).map (change key) :=
  List.dlookup_map₂ key

/-- Change the value of one key, if it has one. -/
def modify (key : Key) (change : Value → Value) (map : Map Key Value) : Map Key Value :=
  mapValues (fun other value => if other = key then change value else value) map

@[simp] theorem lookup_modify_self (key : Key) (change : Value → Value) (map : Map Key Value) :
    (modify key change map).lookup key = (map.lookup key).map change := by
  simp [modify]

theorem lookup_modify_ne {key other : Key} (different : other ≠ key) (change : Value → Value)
    (map : Map Key Value) : (modify key change map).lookup other = map.lookup other := by
  simp [modify, different]

/-- Changing values keeps the keys in their order. -/
@[simp] theorem keys_modify (key : Key) (change : Value → Value) (map : Map Key Value) :
    (modify key change map).keys = map.keys := by
  simp only [modify, mapValues, AList.keys, List.keys, List.map_map]
  rfl

/-- Insert a value unless the key has one. -/
def emplace (key : Key) (value : Value) (map : Map Key Value) : Map Key Value :=
  if key ∈ map then map else map.insert key value

/-- An entry after an insertion is the new one, under a key that was free, or was
there before. -/
theorem lookup_emplace {key other : Key} {value found : Value} {map : Map Key Value}
    (entry : (emplace key value map).lookup other = some found) :
    (other = key ∧ found = value) ∨ map.lookup other = some found := by
  unfold emplace at entry
  split at entry
  · exact .inr entry
  · by_cases same : other = key
    · subst same
      rw [AList.lookup_insert] at entry
      exact .inl ⟨rfl, (Option.some.inj entry).symm⟩
    · rw [AList.lookup_insert_ne same] at entry
      exact .inr entry

/-- An insertion fills a free key and keeps the entry of one that is taken. -/
theorem lookup_emplace_eq (key other : Key) (value : Value) (map : Map Key Value) :
    (emplace key value map).lookup other =
      (map.lookup other).or (if other = key then some value else none) := by
  unfold emplace
  split
  · rename_i present
    by_cases same : other = key
    · subst same
      obtain ⟨found, entry⟩ := Option.isSome_iff_exists.mp (AList.lookup_isSome.mpr present)
      simp [entry]
    · simp [same]
  · rename_i absent
    by_cases same : other = key
    · subst same
      simp [AList.lookup_eq_none.mpr absent]
    · simp [same]

/-- Every value of the map satisfies `Holds` together with its key. -/
def AllValues (Holds : Key → Value → Prop) (map : Map Key Value) : Prop :=
  ∀ key value, map.lookup key = some value → Holds key value

namespace AllValues

variable {Holds : Key → Value → Prop} {map : Map Key Value}

theorem empty : AllValues Holds (∅ : Map Key Value) := by
  intro key value entry
  simp at entry

theorem emplace {key : Key} {value : Value} (all : AllValues Holds map)
    (new : Holds key value) : AllValues Holds (Assoc.emplace key value map) := by
  intro other found entry
  obtain ⟨rfl, rfl⟩ | before := lookup_emplace entry
  · exact new
  · exact all other found before

/-- A loop over the values turns one property of all of them into another. -/
theorem mapValues {After : Key → Value → Prop} {change : Key → Value → Value}
    (all : AllValues Holds map)
    (preserved : ∀ key value, Holds key value → After key (change key value)) :
    AllValues After (Assoc.mapValues change map) := by
  intro key value entry
  rw [lookup_mapValues, Option.map_eq_some_iff] at entry
  obtain ⟨before, found, rfl⟩ := entry
  exact preserved key before (all key before found)

theorem modify {key : Key} {change : Value → Value} (all : AllValues Holds map)
    (preserved : ∀ value, map.lookup key = some value → Holds key value →
      Holds key (change value)) : AllValues Holds (Assoc.modify key change map) := by
  intro other value entry
  by_cases same : other = key
  · subst same
    rw [lookup_modify_self, Option.map_eq_some_iff] at entry
    obtain ⟨before, found, rfl⟩ := entry
    exact preserved before found (all _ before found)
  · rw [lookup_modify_ne same] at entry
    exact all other value entry

end AllValues

/-- A loop establishes a property of all values exactly when it does so on each. -/
theorem allValues_mapValues_iff {Holds : Key → Value → Prop} {change : Key → Value → Value}
    {map : Map Key Value} : AllValues Holds (mapValues change map) ↔
      AllValues (fun key value => Holds key (change key value)) map := by
  constructor
  · intro all key value entry
    apply all key
    rw [lookup_mapValues, entry]
    rfl
  · intro all
    exact all.mapValues fun _ _ holds => holds

end Dls2.Assoc

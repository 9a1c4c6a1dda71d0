import PhasePortrait.Json.Basic

/-!
# Members of objects

An object is made from members in any order, and its members are kept in the order of their names.
Where a member stands does not matter to a look-up: **what is found under a name is what was put
there last**. Members of other names are not in the way (`get?_putAll_of_not_mem`), and of names that
differ each is found with its own value (`get?_putAll`).
-/

namespace PhasePortrait.Json

variable {key name : String} {value : Json} {members more : List (String × Json)}

theorem find?_put (key : String) (value : Json) (members : List (String × Json)) (name : String) :
    (put key value members).find? (·.1 == name) =
      if key = name then some (key, value) else members.find? (·.1 == name) := by
  induction members with
  | nil => by_cases hname : key = name <;> simp [put, hname]
  | cons m rest ih =>
    obtain ⟨k, v⟩ := m
    unfold put
    split
    next hkey =>
      subst hkey
      by_cases hname : key = name <;> simp [hname]
    next hkey =>
      split
      · by_cases hname : key = name <;> simp [hname]
      · by_cases hk : k = name
        · -- The name asked for is passed on the way, so it is not the one that is put.
          have hother : key ≠ name := fun h => hkey (h.trans hk.symm)
          simp [hk, hother]
        · simpa [hk] using ih

theorem get?_put (key : String) (value : Json) (members : List (String × Json)) (name : String) :
    (object (put key value members)).get? name =
      if key = name then some value else (object members).get? name := by
  simp only [get?, find?_put]
  split <;> rfl

/-- Members of other names are not in the way. -/
theorem get?_putAll_of_not_mem (hname : name ∉ more.map Prod.fst)
    (members : List (String × Json)) :
    (object (putAll members more)).get? name = (object members).get? name := by
  induction more generalizing members with
  | nil => rfl
  | cons m more ih =>
    rw [List.map_cons, List.mem_cons, not_or] at hname
    show (object (putAll (put m.1 m.2 members) more)).get? name = (object members).get? name
    rw [ih hname.2, get?_put, if_neg (Ne.symm hname.1)]

/-- Of members with different names each is found, and hides what the object had under its name
before. -/
theorem get?_putAll (hunique : (more.map Prod.fst).Nodup) (hmem : (name, value) ∈ more)
    (members : List (String × Json)) :
    (object (putAll members more)).get? name = some value := by
  induction more generalizing members with
  | nil => cases hmem
  | cons m more ih =>
    rw [List.map_cons, List.nodup_cons] at hunique
    show (object (putAll (put m.1 m.2 members) more)).get? name = some value
    rcases List.mem_cons.mp hmem with rfl | hlater
    · rw [get?_putAll_of_not_mem hunique.1, get?_put, if_pos rfl]
    · exact ih hunique.2 hlater _

theorem get?_ofMembers (hunique : (members.map Prod.fst).Nodup) (hmem : (name, value) ∈ members) :
    (ofMembers members).get? name = some value :=
  get?_putAll hunique hmem []

end PhasePortrait.Json

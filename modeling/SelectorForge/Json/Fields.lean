import SelectorForge.Text.Basic

/-!
# Fields

Named values in the order in which the names first came up: the members of a JSON object, the
attributes of an object. A name occurs once where fields are built by `put`.
-/

namespace SelectorForge

abbrev Fields (α : Type) := List (Text × α)

namespace Fields

variable {α : Type}

def get? (name : Text) : Fields α → Option α
  | [] => none
  | (n, v) :: rest => if n = name then some v else get? name rest

/-- A known name keeps its place and takes the new value; a new one goes to the end. -/
def put (name : Text) (value : α) : Fields α → Fields α
  | [] => [(name, value)]
  | (n, v) :: rest => if n = name then (n, value) :: rest else (n, v) :: put name value rest

def erase (name : Text) : Fields α → Fields α
  | [] => []
  | (n, v) :: rest => if n = name then rest else (n, v) :: erase name rest

def names (fields : Fields α) : List Text := fields.map Prod.fst

/-- Puts all members of the second list, one after the other. -/
def update (fields members : Fields α) : Fields α :=
  members.foldl (fun fields (name, value) => put name value fields) fields

/-- Of several members with one name the last value stands at the first place. -/
def collapse (members : Fields α) : Fields α := update [] members

/-! ### reading after writing -/

theorem get?_nil (name : Text) : get? name ([] : Fields α) = none := rfl

theorem get?_cons (name n : Text) (v : α) (rest : Fields α) :
    get? name ((n, v) :: rest) = if n = name then some v else get? name rest := rfl

theorem put_nil (name : Text) (value : α) : put name value [] = [(name, value)] := rfl

theorem put_cons (name n : Text) (v value : α) (rest : Fields α) :
    put name value ((n, v) :: rest)
      = if n = name then (n, value) :: rest else (n, v) :: put name value rest := rfl

theorem get?_put_self (name : Text) (value : α) (fields : Fields α) :
    get? name (put name value fields) = some value := by
  induction fields with
  | nil => simp [put_nil, get?_cons]
  | cons m rest ih =>
    obtain ⟨n, v⟩ := m
    rw [put_cons]
    split
    · next h => simp [get?_cons, h]
    · next h => simp [get?_cons, h, ih]

theorem get?_put_of_ne {name other : Text} (h : other ≠ name) (value : α) (fields : Fields α) :
    get? name (put other value fields) = get? name fields := by
  induction fields with
  | nil => simp [put_nil, get?_cons, get?_nil, h]
  | cons m rest ih =>
    obtain ⟨n, v⟩ := m
    rw [put_cons]
    split
    · next hn => simp [get?_cons, hn, h]
    · next hn => simp [get?_cons, ih]

theorem put_of_notMem {name : Text} {fields : Fields α} (h : name ∉ names fields) (value : α) :
    put name value fields = fields ++ [(name, value)] := by
  induction fields with
  | nil => rfl
  | cons m rest ih =>
    obtain ⟨n, v⟩ := m
    simp only [names, List.map_cons, List.mem_cons, not_or] at h
    rw [put_cons, if_neg (Ne.symm h.1), ih h.2]
    rfl

theorem update_cons (fields : Fields α) (name : Text) (value : α) (rest : Fields α) :
    update fields ((name, value) :: rest) = update (put name value fields) rest := rfl

end Fields

end SelectorForge

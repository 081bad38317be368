import SelectorForge.Json.Basic
import Mathlib.Data.List.Induction

/-!
# Members of one name

A text can spell several members of one name, and the document has one of them. Here is what happens
to them at every depth of a document:

* `Fields.names_collapse`, `Fields.get?_collapse`   which names are left, and with which values;
* `merged`          the document with the members of one name put together;
* `names_merged`, `get?_merged`   the members that an object is left with;
* `Distinct`        the documents in which no name occurs twice;
* `Distinct.merged_eq`, `distinct_merged`   these documents are the ones that `merged` answers.
-/

namespace SelectorForge

namespace Fields

variable {α : Type}

/-! ### fields -/

theorem mem_put {name : Text} {value : α} {fields : Fields α} {m : Text × α}
    (h : m ∈ put name value fields) : m = (name, value) ∨ m ∈ fields := by
  induction fields with
  | nil => exact Or.inl (List.mem_singleton.mp h)
  | cons f rest ih =>
    obtain ⟨n, v⟩ := f
    rw [put_cons] at h
    split at h
    · next hn =>
      rcases List.mem_cons.mp h with rfl | h
      · exact Or.inl (by rw [hn])
      · exact Or.inr (List.mem_cons_of_mem _ h)
    · rcases List.mem_cons.mp h with rfl | h
      · exact Or.inr List.mem_cons_self
      · exact (ih h).imp_right (List.mem_cons_of_mem _)

theorem names_put_of_mem {name : Text} {fields : Fields α} (h : name ∈ names fields) (value : α) :
    names (put name value fields) = names fields := by
  induction fields with
  | nil => cases h
  | cons f rest ih =>
    obtain ⟨n, v⟩ := f
    rw [put_cons]
    split
    · rfl
    · next hn =>
      have hrest := (List.mem_cons.mp h).resolve_left (Ne.symm hn)
      show n :: names (put name value rest) = n :: names rest
      rw [ih hrest]

theorem nodup_names_put {name : Text} {fields : Fields α} (h : (names fields).Nodup) (value : α) :
    (names (put name value fields)).Nodup := by
  by_cases hn : name ∈ names fields
  · rw [names_put_of_mem hn]
    exact h
  · rw [put_of_notMem hn, names, List.map_append]
    refine List.nodup_append.mpr ⟨h, List.pairwise_singleton _ _, fun a ha b hb => ?_⟩
    rw [List.mem_singleton.mp hb]
    rintro rfl
    exact hn ha

theorem get?_map {β : Type} (f : α → β) (name : Text) (fields : Fields α) :
    get? name (fields.map fun m => (m.1, f m.2)) = (get? name fields).map f := by
  induction fields with
  | nil => rfl
  | cons m rest ih =>
    obtain ⟨n, v⟩ := m
    rw [List.map_cons, get?_cons, get?_cons, ih]
    split
    · rfl
    · rfl

theorem collapse_concat (members : Fields α) (name : Text) (value : α) :
    collapse (members ++ [(name, value)]) = put name value (collapse members) := by
  rw [collapse, update, List.foldl_append]
  rfl

/-- The names stand in the order in which they first came up. -/
theorem names_collapse (members : Fields α) :
    names (collapse members) = (names members).eraseDups := by
  induction members using List.reverseRecOn with
  | nil => rfl
  | append_singleton members m ih =>
    obtain ⟨name, value⟩ := m
    have hnames : names (members ++ [(name, value)]) = names members ++ [name] := by
      rw [names, List.map_append]
      rfl
    rw [collapse_concat, hnames, List.eraseDups_append, ← ih]
    by_cases hn : name ∈ names members
    · have hmem : name ∈ names (collapse members) := by
        rw [ih]
        exact List.mem_eraseDups.mpr hn
      have hnone : [name].removeAll (names members) = [] := by simp [List.removeAll, hn]
      rw [names_put_of_mem hmem, hnone, List.eraseDups_nil, List.append_nil]
    · have hmem : name ∉ names (collapse members) := by
        rw [ih]
        exact fun h => hn (List.mem_eraseDups.mp h)
      have hone : [name].removeAll (names members) = [name] := by simp [List.removeAll, hn]
      rw [put_of_notMem hmem, hone, names, List.map_append]
      rfl

/-- Each name has the last of its values. -/
theorem get?_collapse (name : Text) (members : Fields α) :
    get? name (collapse members) = get? name members.reverse := by
  induction members using List.reverseRecOn with
  | nil => rfl
  | append_singleton members m ih =>
    obtain ⟨n, value⟩ := m
    rw [collapse_concat, List.reverse_append, List.reverse_singleton, List.singleton_append,
      get?_cons, ← ih]
    by_cases hn : n = name
    · rw [if_pos hn, hn, get?_put_self]
    · rw [if_neg hn, get?_put_of_ne hn]

example : collapse [(("a" : Text), 1), ("b", 2), ("a", 3)] = ([("a", 3), ("b", 2)] : Fields Nat) := by
  decide

/-- Nothing but the members stands among the ones that are left. -/
theorem mem_of_mem_collapse {members : Fields α} {m : Text × α} (h : m ∈ collapse members) :
    m ∈ members := by
  induction members using List.reverseRecOn with
  | nil => cases h
  | append_singleton members n ih =>
    obtain ⟨name, value⟩ := n
    rw [collapse_concat] at h
    rcases mem_put h with rfl | h
    · exact List.mem_append_right members List.mem_cons_self
    · exact List.mem_append_left _ (ih h)

theorem nodup_names_collapse (members : Fields α) : (names (collapse members)).Nodup := by
  induction members using List.reverseRecOn with
  | nil => exact List.Pairwise.nil
  | append_singleton members m ih =>
    obtain ⟨name, value⟩ := m
    rw [collapse_concat]
    exact nodup_names_put ih value

/-- Where no name occurs twice, nothing is put together. -/
theorem collapse_of_nodup {members : Fields α} (h : (names members).Nodup) :
    collapse members = members := by
  induction members using List.reverseRecOn with
  | nil => rfl
  | append_singleton members m ih =>
    obtain ⟨name, value⟩ := m
    rw [names, List.map_append] at h
    obtain ⟨hmembers, _, hapart⟩ := List.nodup_append.mp h
    have hn : name ∉ names members := fun hmem =>
      hapart name hmem name List.mem_cons_self rfl
    rw [collapse_concat, ih hmembers, put_of_notMem hn]

end Fields

namespace Json

/-! ### induction over a document -/

@[elab_as_elim]
theorem induction {motive : Json → Prop} (null : motive .null) (bool : ∀ b, motive (.bool b))
    (int : ∀ n, motive (.int n)) (float : ∀ x, motive (.float x)) (str : ∀ t, motive (.str t))
    (arr : ∀ items, (∀ d ∈ items, motive d) → motive (.arr items))
    (obj : ∀ members, (∀ m ∈ members, motive m.2) → motive (.obj members)) :
    ∀ d, motive d
  | .null => null
  | .bool b => bool b
  | .int n => int n
  | .float x => float x
  | .str t => str t
  | .arr items => arr items fun d _ => induction null bool int float str arr obj d
  | .obj members => obj members fun m _ => induction null bool int float str arr obj m.2
termination_by d => sizeOf d
decreasing_by
  · rename_i h
    have hd := List.sizeOf_lt_of_mem h
    simp only [Json.arr.sizeOf_spec]
    omega
  · rename_i h
    have hm := List.sizeOf_lt_of_mem h
    have hsnd : sizeOf m.2 < sizeOf m := by
      cases m
      simp only [Prod.mk.sizeOf_spec]
      omega
    simp only [Json.obj.sizeOf_spec]
    omega

/-! ### putting members together -/

mutual

/-- Of the members of one name the last value stands at the first place, at every depth. -/
def merged : Json → Json
  | .arr items => .arr (mergedItems items)
  | .obj members => .obj (Fields.collapse (mergedMembers members))
  | d => d

def mergedItems : List Json → List Json
  | [] => []
  | d :: ds => merged d :: mergedItems ds

def mergedMembers : List (Text × Json) → List (Text × Json)
  | [] => []
  | (name, d) :: members => (name, merged d) :: mergedMembers members

end

theorem mergedItems_eq_map (items : List Json) : mergedItems items = items.map merged := by
  induction items with
  | nil => rw [mergedItems, List.map_nil]
  | cons d ds ih => rw [mergedItems, ih, List.map_cons]

theorem mergedMembers_eq_map (members : List (Text × Json)) :
    mergedMembers members = members.map fun m => (m.1, merged m.2) := by
  induction members with
  | nil => rw [mergedMembers, List.map_nil]
  | cons m ms ih => rw [mergedMembers, ih, List.map_cons]

theorem merged_arr (items : List Json) : merged (.arr items) = .arr (items.map merged) := by
  rw [merged, mergedItems_eq_map]

theorem merged_obj (members : List (Text × Json)) :
    merged (.obj members) = .obj (Fields.collapse (members.map fun m => (m.1, merged m.2))) := by
  rw [merged, mergedMembers_eq_map]

section

variable {raw ms : List (Text × Json)}

/-- Each name stands where it first came up. -/
theorem names_merged (h : merged (.obj raw) = .obj ms) :
    Fields.names ms = (Fields.names raw).eraseDups := by
  rw [merged_obj] at h
  cases h
  rw [Fields.names_collapse, Fields.names, List.map_map]
  rfl

/-- It has the last of its values, with the members of one name put together in it, too. -/
theorem get?_merged (h : merged (.obj raw) = .obj ms) (name : Text) :
    Fields.get? name ms = (Fields.get? name raw.reverse).map merged := by
  rw [merged_obj] at h
  cases h
  rw [Fields.get?_collapse, ← List.map_reverse, Fields.get?_map]

end

/-- No object has two members of one name. -/
inductive Distinct : Json → Prop
  | null : Distinct .null
  | bool (b : Bool) : Distinct (.bool b)
  | int (n : Int) : Distinct (.int n)
  | float (x : Double) : Distinct (.float x)
  | str (t : Text) : Distinct (.str t)
  | arr {items : List Json} (h : ∀ d ∈ items, Distinct d) : Distinct (.arr items)
  | obj {members : List (Text × Json)} (hn : (Fields.names members).Nodup)
    (h : ∀ m ∈ members, Distinct m.2) : Distinct (.obj members)

theorem distinct_merged (d : Json) : Distinct d.merged := by
  induction d using Json.induction with
  | null => exact .null
  | bool b => exact .bool b
  | int n => exact .int n
  | float x => exact .float x
  | str t => exact .str t
  | arr items ih =>
    rw [merged_arr]
    refine .arr fun d hd => ?_
    obtain ⟨raw, hraw, rfl⟩ := List.mem_map.mp hd
    exact ih raw hraw
  | obj members ih =>
    rw [merged_obj]
    refine .obj (Fields.nodup_names_collapse _) fun m hm => ?_
    obtain ⟨raw, hraw, rfl⟩ := List.mem_map.mp (Fields.mem_of_mem_collapse hm)
    exact ih raw hraw

theorem Distinct.merged_eq {d : Json} (h : Distinct d) : d.merged = d := by
  induction h with
  | null => rfl
  | bool b => rfl
  | int n => rfl
  | float x => rfl
  | str t => rfl
  | @arr items _ ih =>
    rw [merged_arr, List.map_congr_left ih, List.map_id']
  | @obj members hn _ ih =>
    have hmap : (members.map fun m => (m.1, merged m.2)) = members := by
      calc members.map (fun m => (m.1, merged m.2)) = members.map fun m => m :=
            List.map_congr_left fun m hm => by rw [ih m hm]
        _ = members := List.map_id' members
    rw [merged_obj, hmap, Fields.collapse_of_nodup hn]

end Json

end SelectorForge

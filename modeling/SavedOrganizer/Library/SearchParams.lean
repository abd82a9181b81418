import Mathlib.Data.List.Basic

/-!
# Named parameters in a list

A list of names and values in which a name may stand several times: the first value of a name, all
of them, and the operations that add, replace and remove values. `set` replaces the first value of
its name and removes the others, in place.

Everything is told by the values of each name (`getAll`): an operation changes those of its own
name alone.
-/

namespace SearchParams

universe u v

variable {α : Type u} {β : Type v} [DecidableEq α]

def getAll (name : α) (params : List (α × β)) : List β :=
  (params.filter fun p => decide (p.1 = name)).map Prod.snd

/-- The first value. -/
def first (name : α) (params : List (α × β)) : Option β := (getAll name params).head?

/-- The last value, as a dictionary keeps it. -/
def last (name : α) (params : List (α × β)) : Option β := (getAll name params).getLast?

def delete (name : α) (params : List (α × β)) : List (α × β) :=
  params.filter fun p => !decide (p.1 = name)

def append (name : α) (value : β) (params : List (α × β)) : List (α × β) :=
  params ++ [(name, value)]

def set (name : α) (value : β) : List (α × β) → List (α × β)
  | [] => [(name, value)]
  | p :: params =>
      if p.1 = name then (name, value) :: delete name params else p :: set name value params

/-- A list of values, one after the other. -/
def appendAll (name : α) (values : List β) (params : List (α × β)) : List (α × β) :=
  values.foldl (fun params value => append name value params) params

variable {name other : α} {value : β} {values : List β} {params params' : List (α × β)}

@[simp] theorem getAll_nil : getAll name ([] : List (α × β)) = [] := rfl

theorem getAll_cons_self (p : α × β) (params : List (α × β)) :
    getAll p.1 (p :: params) = p.2 :: getAll p.1 params := by
  simp [getAll]

theorem getAll_cons_other {p : α × β} (h : p.1 ≠ name) :
    getAll name (p :: params) = getAll name params := by
  rw [getAll, List.filter_cons_of_neg (by rw [decide_eq_true_eq]; exact h)]
  rfl

theorem getAll_append_list :
    getAll name (params ++ params') = getAll name params ++ getAll name params' := by
  rw [getAll, List.filter_append, List.map_append]
  rfl

@[simp] theorem getAll_delete_self : getAll name (delete name params) = [] := by
  rw [getAll, delete, List.filter_filter]
  simp

theorem getAll_delete_other (h : other ≠ name) :
    getAll other (delete name params) = getAll other params := by
  rw [getAll, delete, List.filter_filter]
  refine congrArg (List.map Prod.snd) (List.filter_congr fun p _ => ?_)
  by_cases hOther : p.1 = other
  · simp [hOther, h]
  · simp [hOther]

@[simp] theorem getAll_append_self :
    getAll name (append name value params) = getAll name params ++ [value] := by
  rw [append, getAll_append_list, getAll_cons_self (name, value), getAll_nil]

theorem getAll_append_other (h : other ≠ name) :
    getAll other (append name value params) = getAll other params := by
  rw [append, getAll_append_list, getAll_cons_other h.symm, getAll_nil, List.append_nil]

@[simp] theorem getAll_set_self : getAll name (set name value params) = [value] := by
  induction params with
  | nil => exact getAll_cons_self (name, value) []
  | cons p params ih =>
      rw [set]
      split
      · rw [getAll_cons_self (name, value), getAll_delete_self]
      · rename_i hName
        rw [getAll_cons_other hName, ih]

theorem getAll_set_other (h : other ≠ name) :
    getAll other (set name value params) = getAll other params := by
  induction params with
  | nil => exact getAll_cons_other h.symm
  | cons p params ih =>
      rw [set]
      split
      · rename_i hName
        rw [getAll_cons_other h.symm, getAll_delete_other h,
          getAll_cons_other fun hOther => h (hOther.symm.trans hName)]
      · by_cases hOther : p.1 = other
        · subst hOther
          rw [getAll_cons_self, ih, getAll_cons_self]
        · rw [getAll_cons_other hOther, ih, getAll_cons_other hOther]

theorem getAll_appendAll_self :
    getAll name (appendAll name values params) = getAll name params ++ values := by
  unfold appendAll
  induction values generalizing params with
  | nil => rw [List.foldl_nil, List.append_nil]
  | cons value values ih =>
      rw [List.foldl_cons, ih, getAll_append_self, List.append_assoc, List.singleton_append]

theorem getAll_appendAll_other (h : other ≠ name) :
    getAll other (appendAll name values params) = getAll other params := by
  unfold appendAll
  induction values generalizing params with
  | nil => rfl
  | cons value values ih => rw [List.foldl_cons, ih, getAll_append_other h]

end SearchParams

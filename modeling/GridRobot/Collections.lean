namespace GridRobot

def sum (ns : List Nat) : Nat :=
  ns.foldr (· + ·) 0

@[simp]
theorem sum_nil : sum [] = 0 :=
  rfl

@[simp]
theorem sum_cons (n : Nat) (ns : List Nat) : sum (n :: ns) = n + sum ns :=
  rfl

/-! ## Maps that remember arrival -/

structure ArrivalMap (κ : Type u) (α : Type v) where
  entries : List (κ × α) := []
  deriving DecidableEq

namespace ArrivalMap

variable {κ : Type u} {α : Type v} [DecidableEq κ]

instance : EmptyCollection (ArrivalMap κ α) := ⟨{}⟩

def keys (m : ArrivalMap κ α) : List κ :=
  m.entries.map (·.1)

def size (m : ArrivalMap κ α) : Nat :=
  m.entries.length

def isEmpty (m : ArrivalMap κ α) : Bool :=
  m.entries.isEmpty

def get? (m : ArrivalMap κ α) (k : κ) : Option α :=
  (m.entries.find? fun e => e.1 = k).map (·.2)

def contains (m : ArrivalMap κ α) (k : κ) : Bool :=
  m.entries.any fun e => e.1 = k

def alter (m : ArrivalMap κ α) (k : κ) (f : Option α → α) : ArrivalMap κ α :=
  ⟨go m.entries⟩
where
  go : List (κ × α) → List (κ × α)
    | [] => [(k, f none)]
    | e :: rest => if e.1 = k then (k, f (some e.2)) :: rest else e :: go rest

def insert (m : ArrivalMap κ α) (k : κ) (a : α) : ArrivalMap κ α :=
  m.alter k fun _ => a

def ofList (entries : List (κ × α)) : ArrivalMap κ α :=
  entries.foldl (fun m e => m.insert e.1 e.2) ∅

theorem get?_alter (m : ArrivalMap κ α) (k l : κ) (f : Option α → α) :
    (m.alter k f).get? l = if l = k then some (f (m.get? k)) else m.get? l := by
  obtain ⟨entries⟩ := m
  simp only [alter, get?]
  induction entries with
  | nil =>
    by_cases h : l = k
    · simp [alter.go, h]
    · have : k ≠ l := fun e => h e.symm
      simp [alter.go, h, this]
  | cons e rest ih =>
    by_cases hk : e.1 = k
    · by_cases h : l = k
      · simp [alter.go, hk, h]
      · have : k ≠ l := fun e => h e.symm
        simp [alter.go, hk, h, this]
    · by_cases hl : e.1 = l
      · have : l ≠ k := by rintro rfl; exact hk hl
        subst hl
        simp [alter.go, hk]
      · by_cases h : l = k
        · subst h; simpa [alter.go, hk] using ih
        · simpa [alter.go, hk, hl, h] using ih

@[simp]
theorem keys_alter (m : ArrivalMap κ α) (k : κ) (f : Option α → α) :
    (m.alter k f).keys = if k ∈ m.keys then m.keys else m.keys ++ [k] := by
  obtain ⟨entries⟩ := m
  simp only [alter, keys]
  induction entries with
  | nil => simp [alter.go]
  | cons e rest ih =>
    by_cases hk : e.1 = k
    · simp [alter.go, hk]
    · have : k ≠ e.1 := fun eq => hk eq.symm
      by_cases mem : k ∈ rest.map (·.1)
      · simp [alter.go, hk, this, mem, ih]
      · simp [alter.go, hk, this, mem, ih]

end ArrivalMap

end GridRobot

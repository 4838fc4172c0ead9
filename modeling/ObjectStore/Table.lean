/-!
# Tables

A `Table κ α` holds values under keys of an ordered type, as a list of entries in strictly ascending
key order. Strict order makes the representation canonical: two tables that answer every look-up
alike are equal (`ext_get?`). Because the list is also the order in which a listing walks the
keys, a listing is a filter over `entries` and needs no sorting step.

The operations come first, then one equation per operation through the view `get?`.
-/

namespace ObjectStore

/-- Values under strictly ascending keys. -/
structure Table (κ α : Type) [LT κ] where
  /-- The entries, in key order. -/
  entries : List (κ × α)
  /-- Every key is below all keys after it. -/
  ascending : entries.Pairwise fun a b => a.1 < b.1

namespace Table

/-! ## Entry lists -/

section Entries

variable {κ α : Type} [LT κ] [DecidableLT κ]

/-- The value under `k`: the first entry whose key is neither below nor above `k`. -/
def lookup (k : κ) : List (κ × α) → Option α
  | [] => none
  | (k', a) :: rest => if k < k' then none else if k' < k then lookup k rest else some a

/-- Puts `a` under `k`, in its place in the order, over a value that was there. -/
def insertEntry (k : κ) (a : α) : List (κ × α) → List (κ × α)
  | [] => [(k, a)]
  | (k', a') :: rest =>
    if k < k' then (k, a) :: (k', a') :: rest
    else if k' < k then (k', a') :: insertEntry k a rest
    else (k, a) :: rest

/-- Drops the entry under `k`. -/
def eraseEntry (k : κ) (entries : List (κ × α)) : List (κ × α) :=
  entries.filter fun e => decide (e.1 < k) || decide (k < e.1)

theorem mem_insertEntry {k : κ} {a : α} {e : κ × α} {entries : List (κ × α)}
    (h : e ∈ insertEntry k a entries) : e = (k, a) ∨ e ∈ entries := by
  induction entries with
  | nil => simpa [insertEntry] using h
  | cons x rest ih => grind [insertEntry]

variable [LE κ] [Std.IsLinearOrder κ] [Std.LawfulOrderLT κ]

theorem pairwise_insertEntry {entries : List (κ × α)} (k : κ) (a : α)
    (h : entries.Pairwise fun x y => x.1 < y.1) :
    (insertEntry k a entries).Pairwise fun x y => x.1 < y.1 := by
  induction entries with
  | nil => simp [insertEntry]
  | cons x rest ih =>
    obtain ⟨k', a'⟩ := x
    have hrest := List.pairwise_cons.mp h
    simp only [insertEntry]
    split
    · rename_i hk
      exact List.pairwise_cons.mpr ⟨fun e he => by grind, h⟩
    · split
      · rename_i hk
        exact List.pairwise_cons.mpr
          ⟨fun e he => (mem_insertEntry he).elim (fun heq => heq ▸ hk) (hrest.1 e), ih hrest.2⟩
      · exact List.pairwise_cons.mpr ⟨fun e he => by grind, hrest.2⟩

theorem lookup_insertEntry [DecidableEq κ] {entries : List (κ × α)} (k q : κ) (a : α) :
    entries.Pairwise (fun x y => x.1 < y.1) →
    lookup q (insertEntry k a entries) = if k = q then some a else lookup q entries := by
  induction entries with
  | nil => intro _; simp only [insertEntry, lookup]; grind
  | cons x rest ih =>
    intro h
    have hrest := List.pairwise_cons.mp h
    have := ih hrest.2
    grind [insertEntry, lookup]

theorem lookup_eq_some_iff {entries : List (κ × α)} {q : κ} {a : α} :
    entries.Pairwise (fun x y => x.1 < y.1) → (lookup q entries = some a ↔ (q, a) ∈ entries) := by
  induction entries with
  | nil => intro _; simp [lookup]
  | cons x rest ih =>
    intro h
    have hrest := List.pairwise_cons.mp h
    have := ih hrest.2
    grind [lookup]

omit [DecidableLT κ] in
/-- Two ascending lists with the same entries are the same list. -/
theorem eq_of_mem_iff {xs ys : List (κ × α)} (hx : xs.Pairwise fun a b => a.1 < b.1)
    (hy : ys.Pairwise fun a b => a.1 < b.1) (h : ∀ e, e ∈ xs ↔ e ∈ ys) : xs = ys := by
  induction xs generalizing ys with
  | nil => exact (List.eq_nil_iff_forall_not_mem.mpr fun e he => by simpa using (h e).mpr he).symm
  | cons x xs ih =>
    cases ys with
    | nil => exact absurd ((h x).mp List.mem_cons_self) List.not_mem_nil
    | cons y ys =>
      have hx' := List.pairwise_cons.mp hx
      have hy' := List.pairwise_cons.mp hy
      have hxy : x = y := by
        have h₁ := (h x).mp List.mem_cons_self
        have h₂ := (h y).mpr List.mem_cons_self
        grind
      subst hxy
      rw [ih hx'.2 hy'.2 fun e => by grind]

end Entries

/-! ## Operations -/

variable {κ α β : Type} [LT κ]

/-- The table without entries. -/
def empty : Table κ α := ⟨[], List.Pairwise.nil⟩

instance : EmptyCollection (Table κ α) := ⟨empty⟩

instance : Inhabited (Table κ α) := ⟨empty⟩

/-- The keys, ascending. -/
def keys (t : Table κ α) : List κ := t.entries.map (·.1)

/-- How many entries there are. -/
def size (t : Table κ α) : Nat := t.entries.length

/-- Applies `f` to every value and leaves the keys. -/
def map (f : α → β) (t : Table κ α) : Table κ β where
  entries := t.entries.map fun e => (e.1, f e.2)
  ascending := List.pairwise_map.mpr t.ascending

variable [DecidableLT κ]

/-- The value under `k`. -/
def get? (t : Table κ α) (k : κ) : Option α := lookup k t.entries

/-- Whether there is a value under `k`. -/
def contains (t : Table κ α) (k : κ) : Bool := (t.get? k).isSome

/-- Drops the entry under `k`, if there is one. -/
def erase (t : Table κ α) (k : κ) : Table κ α where
  entries := eraseEntry k t.entries
  ascending := t.ascending.filter _

variable [LE κ] [Std.IsLinearOrder κ] [Std.LawfulOrderLT κ]

/-- Puts `a` under `k`, over a value that was there. -/
def insert (t : Table κ α) (k : κ) (a : α) : Table κ α where
  entries := insertEntry k a t.entries
  ascending := pairwise_insertEntry k a t.ascending

/-- The table of a list of entries; of two entries with one key the later counts. -/
def ofList (entries : List (κ × α)) : Table κ α :=
  entries.foldl (fun t e => t.insert e.1 e.2) empty

/-! ## The view through `get?` -/

omit [LE κ] [Std.IsLinearOrder κ] [Std.LawfulOrderLT κ] in
@[simp] theorem get?_empty (q : κ) : (empty : Table κ α).get? q = none := rfl

theorem get?_eq_some_iff (t : Table κ α) {q : κ} {a : α} :
    t.get? q = some a ↔ (q, a) ∈ t.entries :=
  lookup_eq_some_iff t.ascending

theorem mem_keys_iff (t : Table κ α) {k : κ} : k ∈ t.keys ↔ (t.get? k).isSome := by
  rw [Option.isSome_iff_exists]
  simp [keys, get?_eq_some_iff]

variable [DecidableEq κ]

theorem get?_insert (t : Table κ α) (k q : κ) (a : α) :
    (t.insert k a).get? q = if k = q then some a else t.get? q :=
  lookup_insertEntry k q a t.ascending

@[simp] theorem get?_insert_self (t : Table κ α) (k : κ) (a : α) :
    (t.insert k a).get? k = some a := by simp [get?_insert]

theorem get?_insert_of_ne (t : Table κ α) {k q : κ} (h : k ≠ q) (a : α) :
    (t.insert k a).get? q = t.get? q := by simp [get?_insert, h]

theorem get?_erase (t : Table κ α) (k q : κ) :
    (t.erase k).get? q = if k = q then none else t.get? q := by
  apply Option.ext
  intro a
  rw [get?_eq_some_iff]
  split
  · rename_i h; subst h; grind [erase, eraseEntry]
  · rename_i h; rw [get?_eq_some_iff]; grind [erase, eraseEntry]

omit [DecidableEq κ] in
/-- Tables that answer every look-up alike are equal. -/
theorem ext_get? {t u : Table κ α} (h : ∀ k, t.get? k = u.get? k) : t = u := by
  have : t.entries = u.entries := eq_of_mem_iff t.ascending u.ascending fun e => by
    rw [← get?_eq_some_iff t, ← get?_eq_some_iff u, h]
  cases t; cases u; subst this; rfl

/-- To put a value where it is already changes nothing. -/
theorem insert_of_get? {t : Table κ α} {k : κ} {a : α} (h : t.get? k = some a) :
    t.insert k a = t := by
  refine ext_get? fun q => ?_
  rw [get?_insert]
  split
  · rename_i hq
    rw [← hq, h]
  · rfl

/-- To take away what is not there changes nothing. -/
theorem erase_of_contains {t : Table κ α} {k : κ} (h : t.contains k = false) : t.erase k = t := by
  refine ext_get? fun q => ?_
  rw [get?_erase]
  split
  · rename_i hq
    rw [← hq]
    exact (Option.isNone_iff_eq_none.mp (by simpa [contains] using h)).symm
  · rfl

end Table

end ObjectStore

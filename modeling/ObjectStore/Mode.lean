/-!
# Modes

The mode of an object is a set of flags in one byte. Four flags have a meaning: the object can be
read, is a directory, is an upload that takes parts, is a link. The other four bits are kept as they
are.
-/

namespace ObjectStore

/-- A set of flags. -/
structure Mode where
  bits : UInt8
  deriving DecidableEq

namespace Mode

/-- No flag. -/
def empty : Mode := ⟨0⟩

/-- The body of the object can be read. -/
def read : Mode := ⟨1⟩

/-- The object stands for a directory. -/
def dir : Mode := ⟨2⟩

/-- The object is an upload that takes parts. -/
def part : Mode := ⟨4⟩

/-- The object points at another one. -/
def link : Mode := ⟨8⟩

/-- All flags of either mode. -/
def union (m n : Mode) : Mode := ⟨m.bits ||| n.bits⟩

/-- The flags of `m` that `n` lacks. -/
def without (m n : Mode) : Mode := ⟨m.bits &&& ~~~n.bits⟩

/-- Whether `m` has all flags of `n`. No mode contains the empty one. -/
def contains (m n : Mode) : Bool := m.bits &&& n.bits == n.bits && n.bits != 0

/-- Whether there is no flag at all. -/
def isEmpty (m : Mode) : Bool := m.bits == 0

/-- The flags with a name, in the order in which names are written. -/
def named : List (Mode × String) := [(read, "read"), (dir, "dir"), (part, "part"), (link, "link")]

/-- The names of the flags, with bars between them; `none` if no named flag is there. -/
def text (m : Mode) : String :=
  match (named.filter fun n => m.contains n.1).map (·.2) with
  | [] => "none"
  | names => "|".intercalate names

/-- A mode with a flag added has that flag. -/
theorem contains_union_right (m : Mode) {n : Mode} (h : n ≠ empty) : (m.union n).contains n := by
  have hn : n.bits ≠ 0 := fun h0 => h (by cases n; simp_all [empty])
  have : (m.bits ||| n.bits) &&& n.bits = n.bits := by
    apply UInt8.toBitVec_inj.mp
    apply BitVec.eq_of_getElem_eq
    intro i hi
    simpa using Or.inr
  simp [contains, union, hn, this]

/-- A mode with a flag taken away lacks that flag. -/
theorem contains_without (m n : Mode) : (m.without n).contains n = false := by
  have : (m.bits &&& ~~~n.bits) &&& n.bits = 0 := by
    apply UInt8.toBitVec_inj.mp
    apply BitVec.eq_of_getElem_eq
    intro i hi
    simp
  simp only [contains, without, this]
  grind

/-- No flag of `n` is one of `m`. -/
theorem bits_of_disjoint {m n : Mode} (h : m.bits &&& n.bits = 0) {i : Nat} (hi : i < 8) :
    n.bits.toBitVec[i] = true → m.bits.toBitVec[i] = false := by
  have hbit := congrArg (fun b => b.toBitVec.getLsbD i) h
  simp only [UInt8.toBitVec_and, BitVec.getLsbD_and] at hbit
  rw [BitVec.getLsbD_eq_getElem hi, BitVec.getLsbD_eq_getElem hi] at hbit
  intro hn
  rw [hn, Bool.and_true] at hbit
  simpa using hbit

/-- A mode with flags added has no other flag more. -/
theorem contains_union_of_disjoint (m : Mode) {n flag : Mode} (h : n.bits &&& flag.bits = 0) :
    (m.union n).contains flag = m.contains flag := by
  have hbits : (m.bits ||| n.bits) &&& flag.bits = m.bits &&& flag.bits := by
    apply UInt8.toBitVec_inj.mp
    apply BitVec.eq_of_getElem_eq
    intro i hi
    have hbit := bits_of_disjoint h hi
    cases hflag : flag.bits.toBitVec[i] <;> simp_all
  rw [contains, contains, union, hbits]

/-- A mode with flags taken away lacks no other flag. -/
theorem contains_without_of_disjoint (m : Mode) {n flag : Mode} (h : n.bits &&& flag.bits = 0) :
    (m.without n).contains flag = m.contains flag := by
  have hbits : m.bits &&& ~~~n.bits &&& flag.bits = m.bits &&& flag.bits := by
    apply UInt8.toBitVec_inj.mp
    apply BitVec.eq_of_getElem_eq
    intro i hi
    have hbit := bits_of_disjoint h hi
    cases hflag : flag.bits.toBitVec[i] <;> simp_all
  rw [contains, contains, without, hbits]

end Mode

end ObjectStore

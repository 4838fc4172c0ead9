import ObjectStore.Proofs.CustomerKeys
import ObjectStore.Proofs.Numerals
import ObjectStore.Proofs.Steps

/-!
# Reading windows

A window travels as the text of a range, with the offset of its last byte in place of its size, and a
store cuts from the body what it reads from that text. What comes back is exactly the bytes of the
window that the body has (`windowed_read_exact`), so that a body can be read piece by piece.

The text of a range reads as the two offsets that it was made from (`Store.readRange?_of_toList`), and
of these the store takes the last one down to the end of the body (`Store.slice?_window`).
-/

namespace ObjectStore

/-! ## What a window says -/

namespace Window

/-- Where a window starts. -/
def start (w : Window) : Nat := (w.offset.getD 0).toNat

/-- The end of a window in a body of this length: the first offset that is not in it. -/
def stop (w : Window) (length : Nat) : Nat :=
  w.size.elim length fun n => min (w.start + n.toNat) length

/-- That a window can be asked for: if it has a size, it has a last byte, with an offset of 64 bits. -/
def Sendable (w : Window) : Prop :=
  ∀ n, w.size = some n → 1 ≤ n.toNat ∧ w.start + n.toNat - 1 < UInt64.size

/-- The windows of `size` bytes that a body of this length is read by, one after another: they start at
the multiples of the size that lie in the body. -/
def pieces (size : UInt64) (length : Nat) : List Window :=
  (List.range ((length + size.toNat - 1) / size.toNat)).map fun i =>
    ⟨some (UInt64.ofNat (i * size.toNat)), some size⟩

theorem one_le_toNat_iff {n : UInt64} : 1 ≤ n.toNat ↔ n ≠ 0 := by
  have hzero : n = 0 ↔ n.toNat = 0 := UInt64.toNat_inj.symm
  rw [Ne, hzero]
  omega

/-- The whole body can be asked for. -/
theorem sendable_whole : ({} : Window).Sendable := nofun

variable {w : Window}

theorem isEmpty_eq_false (h : w.Sendable) : w.isEmpty = false := by
  cases hsize : w.size with
  | none => rw [isEmpty, hsize]; rfl
  | some n =>
    have hn : n ≠ 0 := one_le_toNat_iff.mp (h n hsize).1
    rw [isEmpty, hsize]
    simpa using hn

theorem toNat_lastByte {first n : UInt64} (hn : 1 ≤ n.toNat)
    (hlast : first.toNat + n.toNat - 1 < UInt64.size) :
    (lastByte first n).toNat = first.toNat + n.toNat - 1 := by
  have hne : n ≠ 0 := one_le_toNat_iff.mp hn
  have hpred : (n - 1).toNat = n.toNat - 1 :=
    UInt64.toNat_sub_of_le _ _ (UInt64.le_iff_toNat_le.mpr hn)
  have hmod : (first.toNat + (n.toNat - 1)) % UInt64.size = first.toNat + (n.toNat - 1) :=
    Nat.mod_eq_of_lt (by omega)
  rw [lastByte, if_neg hne, UInt64.toNat_add, hpred]
  exact hmod.trans (by omega)

/-- The sum does not fall below the start where the last byte has an offset. -/
theorem not_lastByte_lt {first n : UInt64} (hn : 1 ≤ n.toNat)
    (hlast : first.toNat + n.toNat - 1 < UInt64.size) : ¬ lastByte first n < first := by
  rw [UInt64.lt_iff_toNat_lt, toNat_lastByte hn hlast]
  omega

end Window

/-! ## The text of a range -/

namespace Store

/-- The text of a range reads as the number in front of the mark, and the one behind it if it has one. -/
theorem readRange?_of_toList {text : String} (first : UInt64) (last : List Char)
    (h : text.toList = "bytes=".toList ++ ((toString first).toList ++ '-' :: last)) :
    readRange? text =
      if last = [] then some (first, none)
      else (Text.Numeral.uint64? last).map fun last => (first, some last) := by
  have hstem := Text.dropStem?_eq_some_iff.mpr h
  have hcut : Text.cutAt? '-' ((toString first).toList ++ '-' :: last) =
      some ((toString first).toList, last) := Text.cutAt?_toString (by decide) first.toNat last
  simp only [readRange?, hstem, hcut, Text.Numeral.uint64?_toString, Option.bind_eq_bind,
    Option.bind_some]
  split
  · rfl
  · cases Text.Numeral.uint64? last <;> rfl

theorem readRange?_from (first : UInt64) :
    readRange? s!"bytes={first}-" = some (first, none) := by
  refine (readRange?_of_toList first [] ?_).trans (if_pos rfl)
  simp only [String.toList_append, List.append_assoc]
  rfl

theorem readRange?_between (first last : UInt64) :
    readRange? s!"bytes={first}-{last}" = some (first, some last) := by
  refine (readRange?_of_toList first (toString last).toList ?_).trans ?_
  · simp only [String.toList_append, List.append_assoc]
    rfl
  · rw [Text.Numeral.uint64?_toString]
    exact if_neg (Text.toList_toString_ne_nil last.toNat)

end Store

namespace Window

variable {w : Window}

/-- A window with a size is sent with its last byte, if that does not fall below the first. -/
theorem range_of_size (offset : Option UInt64) (n : UInt64) :
    range ⟨offset, some n⟩ =
      if lastByte (offset.getD 0) n < offset.getD 0 then .error (.windowOverflow (offset.getD 0) n)
      else .ok (some s!"bytes={offset.getD 0}-{lastByte (offset.getD 0) n}") := by
  cases offset <;> rfl

/-- A window that can be asked for is sent as the range of its first and its last byte, if it does not
want the whole body. -/
theorem range_of_sendable (h : w.Sendable) (hpart : w ≠ {}) :
    ∃ text, w.range = .ok (some text) ∧
      Store.readRange? text =
        some (w.offset.getD 0, w.size.map (lastByte (w.offset.getD 0))) := by
  obtain ⟨offset, size⟩ := w
  cases size with
  | none =>
    cases offset with
    | none => exact absurd rfl hpart
    | some first => exact ⟨_, rfl, Store.readRange?_from first⟩
  | some n =>
    obtain ⟨hn, hlast⟩ := h n rfl
    refine ⟨_, ?_, Store.readRange?_between (offset.getD 0) (lastByte (offset.getD 0) n)⟩
    rw [range_of_size, if_neg (not_lastByte_lt hn hlast)]

end Window

/-! ## The bytes of a range -/

namespace Store

/-- What a store cuts by the two offsets of a window is what the body has of the window, which is
nothing where the window starts behind it. -/
theorem slice?_window {w : Window} (h : w.Sendable) (body : Bytes) :
    slice? body (w.offset.getD 0, w.size.map (Window.lastByte (w.offset.getD 0))) =
      if body.length ≤ w.start then none
      else some (body.extract w.start (w.stop body.length)) := by
  have hstart : (w.offset.getD 0).toNat = w.start := rfl
  by_cases hbeyond : body.length ≤ w.start
  · rw [slice?, hstart, if_pos (.inl hbeyond), if_pos hbeyond]
  · cases hsize : w.size with
    | none =>
      have hstop : w.stop body.length = body.length := by rw [Window.stop, hsize]; rfl
      simp only [slice?, hstart, Option.map_none, Option.elim_none, if_neg hbeyond, hstop]
      rw [if_neg (by omega), List.extract_eq_take_drop]
      congr 2
      omega
    | some n =>
      obtain ⟨hn, hlast⟩ := h n hsize
      have hstop : w.stop body.length = min (w.start + n.toNat) body.length := by
        rw [Window.stop, hsize]; rfl
      simp only [slice?, hstart, Option.map_some, Option.elim_some, if_neg hbeyond, hstop,
        Window.toNat_lastByte hn hlast]
      rw [if_neg (by omega), List.extract_eq_take_drop]
      congr 2
      omega

/-- What is cut by the range of a window; the store faults where the window starts behind the body. -/
theorem cutRange_window {w : Window} (h : w.Sendable) (hpart : w ≠ {}) :
    ∃ text, w.range = .ok (some text) ∧ ∀ body : Bytes,
      cutRange body (some text) =
        if body.length ≤ w.start then .error (.invalidRange text)
        else .ok (body.extract w.start (w.stop body.length)) := by
  obtain ⟨text, hrange, hread⟩ := Window.range_of_sendable h hpart
  refine ⟨text, hrange, fun body => ?_⟩
  have hslice := slice?_window h body
  by_cases hbeyond : body.length ≤ w.start
  · rw [if_pos hbeyond] at hslice ⊢
    simp only [cutRange, hread, Option.bind_eq_bind, Option.bind_some, hslice]
  · rw [if_neg hbeyond] at hslice ⊢
    simp only [cutRange, hread, Option.bind_eq_bind, Option.bind_some, hslice]

end Store

/-! ## One read -/

/-- That reading a window brings exactly what a body has of it. -/
structure Mount.ReadsExactly (m : Mount) (s : Store) (path : String) (key : Option CustomerKey)
    (body : Bytes) (w : Window) : Prop where
  /-- An empty window is read without a request. -/
  empty : w.size = some 0 → m.read path w key = .done (.ok [])
  /-- A window whose last byte has no offset of 64 bits is refused without a request. -/
  overflow : ∀ n, w.size = some n → 1 ≤ n.toNat → UInt64.size ≤ w.start + n.toNat - 1 →
    m.read path w key = .done (.error (.windowOverflow (w.offset.getD 0) n))
  /-- Any other window meets a fault that waits. -/
  waiting : w.Sendable → ∀ p, Store.takeFault? .getObject s.faults = some p →
    ((m.read path w key).run s).1 = .error (.ofFault p.1)
  whole : w = {} → Store.takeFault? .getObject s.faults = none →
    ((m.read path w key).run s).1 = .ok body
  beyond : w.Sendable → w ≠ {} → Store.takeFault? .getObject s.faults = none →
    body.length ≤ w.start →
      ∃ f, ((m.read path w key).run s).1 = .error (.unexpected f) ∧ f.code = "InvalidRange" ∧
        f.status = some 416
  inside : w.Sendable → w ≠ {} → Store.takeFault? .getObject s.faults = none →
    w.start < body.length →
      ((m.read path w key).run s).1 = .ok (body.extract w.start (w.stop body.length))

namespace Store

variable {m : Mount} {s : Store} {path : String} {key : Option CustomerKey} {o : KeptObject}
  {w : Window}

/-- A read that is asked for is one request, and leaves nothing but that in the log. -/
theorem run_read_sent (ho : s.objectAt? m.bucket (m.keyOf path false) = some o)
    (hkey : o.lock.map (·.md5) = key.map (·.secretMd5))
    (hnone : takeFault? .getObject s.faults = none) (h : w.Sendable) {range : Option String}
    (hrange : w.range = .ok range) :
    (m.read path w key).run s =
      ((cutRange o.body range).mapError .ofFault,
        s.record (.getObject ⟨m.bucket, m.keyOf path false, range, key⟩)) := by
  have hanswer (r : Request.GetObject) :
      s.answer (.getObject r) = (s.getObject r, s.record (.getObject r)) := answer_of_none hnone
  rw [read_eq (Window.isEmpty_eq_false h) hrange, Call.send, Call.run]
  simp only [Backend.exchange, hanswer, getObject_of_some ho, checkLock_of_md5 hkey]
  cases cutRange o.body range <;> rfl

/-- A read that is asked for meets a fault that waits. -/
theorem run_read_waiting {p : Fault × List (Request.Kind × Fault)}
    (hp : takeFault? .getObject s.faults = some p) (h : w.Sendable) :
    ((m.read path w key).run s).1 = .error (.ofFault p.1) := by
  obtain ⟨range, hrange⟩ : ∃ range, w.range = .ok range := by
    by_cases hpart : w = {}
    · exact ⟨none, by rw [hpart]; rfl⟩
    · obtain ⟨text, htext, -⟩ := Window.range_of_sendable h hpart
      exact ⟨some text, htext⟩
  have hanswer (r : Request.GetObject) : (s.answer (.getObject r)).1 = .error p.1 := by
    rw [answer_of_some (show takeFault? (Request.getObject r).kind s.faults = some p from hp)]
  rw [read_eq (Window.isEmpty_eq_false h) hrange, Call.send, Call.run]
  simp only [Backend.exchange, hanswer]

/-- Reading a window of an object that is there. -/
theorem reads_exactly (ho : s.objectAt? m.bucket (m.keyOf path false) = some o)
    (hkey : o.lock.map (·.md5) = key.map (·.secretMd5)) (w : Window) :
    m.ReadsExactly s path key o.body w where
  empty hsize := by
    rw [Mount.read, Window.isEmpty, hsize]
    rfl
  overflow n hsize hn hlast := by
    obtain ⟨offset, size⟩ := w
    obtain rfl : size = some n := hsize
    have hne : n ≠ 0 := Window.one_le_toNat_iff.mp hn
    have hstart : Window.start ⟨offset, some n⟩ = (offset.getD 0).toNat := rfl
    have hlt : Window.lastByte (offset.getD 0) n < offset.getD 0 := by
      rw [Window.lastByte_lt_iff hne]
      omega
    rw [Mount.read, Window.range_of_size, if_pos hlt, if_neg (by simpa [Window.isEmpty] using hne)]
    rfl
  waiting h p hp := run_read_waiting hp h
  whole hw hnone := by
    subst hw
    rw [run_read_sent ho hkey hnone Window.sendable_whole rfl]
    rfl
  beyond h hpart hnone hbeyond := by
    obtain ⟨text, hrange, hcut⟩ := cutRange_window h hpart
    rw [run_read_sent ho hkey hnone h hrange, hcut, if_pos hbeyond]
    exact ⟨.invalidRange text, rfl, rfl, rfl⟩
  inside h hpart hnone hinside := by
    obtain ⟨text, hrange, hcut⟩ := cutRange_window h hpart
    rw [run_read_sent ho hkey hnone h hrange, hcut, if_neg (Nat.not_le.mpr hinside)]
    rfl

end Store

/-! ## Reading piece by piece -/

/-- The pieces of a list are the list. -/
theorem flatten_extract {α : Type} (xs : List α) (n count : Nat) :
    ((List.range count).map fun i => xs.extract (i * n) (min (i * n + n) xs.length)).flatten =
      xs.take (count * n) := by
  induction count with
  | zero => simp
  | succ count ih =>
    have hpiece : xs.extract (count * n) (min (count * n + n) xs.length) =
        (xs.drop (count * n)).take n := by
      rw [List.extract_eq_take_drop, List.take_eq_take_iff, List.length_drop]
      omega
    rw [List.range_succ, List.map_append, List.flatten_append, ih, List.map_singleton,
      List.flatten_singleton, hpiece, Nat.succ_mul, List.take_add]

/-- A piece starts in the body, and its window can be asked for. -/
theorem Window.sendable_piece {size : UInt64} {length i : Nat} (hsize : size ≠ 0)
    (hlength : 2 * length < UInt64.size) (hi : i < (length + size.toNat - 1) / size.toNat) :
    (UInt64.ofNat (i * size.toNat)).toNat = i * size.toNat ∧ i * size.toNat < length ∧
      Window.Sendable ⟨some (UInt64.ofNat (i * size.toNat)), some size⟩ := by
  have hpos : 1 ≤ size.toNat := Window.one_le_toNat_iff.mpr hsize
  have hlast : (i + 1) * size.toNat ≤ length + size.toNat - 1 :=
    (Nat.le_div_iff_mul_le hpos).mp hi
  rw [Nat.succ_mul] at hlast
  have hinside : i * size.toNat < length := by omega
  have hoffset : (UInt64.ofNat (i * size.toNat)).toNat = i * size.toNat :=
    UInt64.toNat_ofNat_of_lt' (by omega)
  refine ⟨hoffset, hinside, ?_⟩
  rintro _ ⟨⟩
  have hstart : Window.start ⟨some (UInt64.ofNat (i * size.toNat)), some size⟩ = i * size.toNat :=
    hoffset
  rw [hstart]
  refine ⟨hpos, ?_⟩
  -- A piece behind the first one is no larger than the body.
  cases i with
  | zero =>
    have hlt : size.toNat < UInt64.size := size.toNat_lt
    omega
  | succ i =>
    rw [Nat.succ_mul] at hinside ⊢
    omega

/-- Reading the pieces of a body one after another brings bytes that make up the body. -/
theorem Store.reads_pieces {m : Mount} {s : Store} {path : String} {key : Option CustomerKey}
    {o : KeptObject} (ho : s.objectAt? m.bucket (m.keyOf path false) = some o)
    (hlength : 2 * o.body.length < UInt64.size) (hkey : o.lock.map (·.md5) = key.map (·.secretMd5))
    (hnone : takeFault? .getObject s.faults = none) {size : UInt64} (hsize : size ≠ 0) :
    ∃ read, ((Window.pieces size o.body.length).mapM fun w =>
        Steps.call (m.read path w key)).Brings s read ∧ read.flatten = o.body := by
  let piece (w : Window) : Bytes := o.body.extract w.start (w.stop o.body.length)
  refine ⟨(Window.pieces size o.body.length).map piece, Steps.brings_mapM fun w hw => ?_, ?_⟩
  · obtain ⟨i, hi, rfl⟩ := List.mem_map.mp hw
    obtain ⟨hoffset, hinside, hsend⟩ := Window.sendable_piece hsize hlength (List.mem_range.mp hi)
    obtain ⟨text, hrange, hcut⟩ := cutRange_window hsend nofun
    intro log
    have ho' : ({ s with log } : Store).objectAt? m.bucket (m.keyOf path false) = some o := ho
    refine ⟨[.getObject ⟨m.bucket, m.keyOf path false, some text, key⟩], congrArg some ?_⟩
    rw [run_read_sent ho' hkey hnone hsend hrange, hcut, if_neg]
    · rfl
    · rw [Nat.not_le]
      exact lt_of_eq_of_lt hoffset hinside
  · have hpieces : (Window.pieces size o.body.length).map piece =
        (List.range ((o.body.length + size.toNat - 1) / size.toNat)).map fun i =>
          o.body.extract (i * size.toNat) (min (i * size.toNat + size.toNat) o.body.length) := by
      rw [Window.pieces, List.map_map]
      refine List.map_congr_left fun i hi => ?_
      obtain ⟨hoffset, -, -⟩ := Window.sendable_piece hsize hlength (List.mem_range.mp hi)
      simp only [Function.comp_apply, piece, Window.start, Window.stop, Option.getD_some,
        Option.elim_some, hoffset]
    have hpos : 1 ≤ size.toNat := Window.one_le_toNat_iff.mpr hsize
    have hcover : o.body.length ≤ (o.body.length + size.toNat - 1) / size.toNat * size.toNat := by
      have hround := @Nat.lt_div_mul_add (o.body.length + size.toNat - 1) size.toNat hpos
      omega
    rw [hpieces, flatten_extract, List.take_of_length_le hcover]

/-- **A windowed read is the exact slice.** Whoever has the customer key of an object reads by each
window exactly the bytes that the body has of it, or is told that the window overflows, or starts behind
the body; as long as no fault waits for a read. So the pieces of any size put together are the body. -/
theorem windowed_read_exact (m : Mount) (s : Store) (path : String) (key : Option CustomerKey)
    (o : KeptObject) (ho : s.objectAt? m.bucket (m.keyOf path false) = some o)
    (hlength : 2 * o.body.length < UInt64.size) (hkey : o.lock.map (·.md5) = key.map (·.secretMd5)) :
    (∀ w, m.ReadsExactly s path key o.body w) ∧
      (Store.takeFault? .getObject s.faults = none → ∀ size : UInt64, size ≠ 0 →
        ∃ read, ((Window.pieces size o.body.length).mapM fun w =>
          Steps.call (m.read path w key)).Brings s read ∧ read.flatten = o.body) :=
  ⟨Store.reads_exactly ho hkey, fun hnone _ hsize =>
    Store.reads_pieces ho hlength hkey hnone hsize⟩

/-- An object with a customer key: its last byte by a window that goes on behind it, and its pieces of
two bytes. -/
theorem windowed_read_exact_three_bytes :
    let m : Mount := ⟨"b", .root, 2, none, none, by decide⟩
    let key : CustomerKey := ⟨"AES256", List.replicate 32 1, rfl⟩
    let s := (Run.calls ⟨Store.withBuckets ["b"] (fun n => toString n) 0 false, []⟩
      [(m, .write "k" [5, 6, 7] 3 { customerKey := some key })]).state
    ((m.read "k" ⟨some 2, some 9⟩ (some key)).run s).1 = .ok [7] ∧
      Window.pieces 2 3 = [⟨some 0, some 2⟩, ⟨some 2, some 2⟩] ∧
      ∃ read, ((Window.pieces 2 3).mapM fun w =>
        Steps.call (m.read "k" w (some key))).Brings s read ∧ read.flatten = [5, 6, 7] := by
  intro m key s
  have hbody : (s.objectAt? "b" "k").map (·.body) = some [5, 6, 7] := by decide +kernel
  have hlock : (s.objectAt? "b" "k").map (fun o => o.lock.map (·.md5)) =
      some (some key.secretMd5) := by decide +kernel
  obtain ⟨o, ho, hbytes⟩ := Option.map_eq_some_iff.mp hbody
  rw [ho] at hlock
  have hnone : Store.takeFault? .getObject s.faults = none := by decide +kernel
  have hlength : 2 * o.body.length < UInt64.size := by
    rw [hbytes]
    decide
  obtain ⟨hread, hpieces⟩ :=
    windowed_read_exact m s "k" (some key) o ho hlength (Option.some.inj hlock)
  rw [hbytes] at hread hpieces
  have hsend : Window.Sendable ⟨some 2, some 9⟩ := by
    rintro _ ⟨⟩
    decide
  refine ⟨?_, by decide, hpieces hnone 2 (by decide)⟩
  exact (hread ⟨some 2, some 9⟩).inside hsend (by decide) hnone (by decide)

/-- While a fault waits for a read, not even the whole object is read. -/
theorem windowed_read_waiting_fault :
    let m : Mount := ⟨"b", .root, 2, none, none, by decide⟩
    let fault := Fault.http "SlowDown" 503 "slow"
    let s := ((Run.calls ⟨Store.withBuckets ["b"] (fun n => toString n) 0 false, []⟩
      [(m, .write "k" [5, 6, 7] 3 {})]).state).arrangeFault .getObject fault
    (s.objectAt? "b" "k").map (fun o => (o.body, o.lock.isSome)) = some ([5, 6, 7], false) ∧
      ((m.read "k" {} none).run s).1 = .error (.unexpected fault) := by
  intro m fault s
  have hwaits : Store.takeFault? .getObject s.faults = some (fault, []) := by decide +kernel
  exact ⟨by decide +kernel, Store.run_read_waiting hwaits Window.sendable_whole⟩

end ObjectStore

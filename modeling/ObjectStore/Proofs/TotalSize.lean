import ObjectStore.Proofs.Completion
import ObjectStore.Proofs.Listing.Responses

/-!
# The size of a completed object

A completion tells the caller the sum of the sizes of the listed parts, and adds up when the upload is
already gone, so it must not overflow then. It does not, if the listed parts are ones that were written:
indices that ascend below a bound are no more than the bound (`Mount.length_le_of_ascending`), and a
part that was written is not larger than a part may be (`Part.Written.size_le`). So the sum is below
`2^64` by far (`completed_size_fits`), and the bound that this gives is the best one: there are parts
that come to it (`completed_size_fits_largest`).
-/

namespace ObjectStore

/-! ## Parts that were written -/

/-- That some backend was given a part, through any mount and for any object, and the caller was told
of it. -/
def Part.Written (p : Part) : Prop :=
  ∃ (σ : Type) (_ : Backend σ) (m : Mount) (object : Object) (index : UInt32) (body : Bytes)
    (size : UInt64) (contentMd5 : Option String) (key : Option CustomerKey) (s s' : σ),
    (m.writePart object index body size contentMd5 key).run s = (.ok p, s')

/-- The reply to a request that stores a part. -/
def Reply.Stored.reply (r : Reply.Stored) : (request : Request) → request.Reply
  | .uploadPart _ => r
  | request => request.blank

namespace Mount

/-- A part that is told of has the index and the size that were given, and they passed the check. -/
theorem writePart_ok {m : Mount} {σ : Type} [Backend σ] {object : Object} {index : UInt32}
    {body : Bytes} {size : UInt64} {contentMd5 : Option String} {key : Option CustomerKey} {s s' : σ}
    {p : Part} (h : (m.writePart object index body size contentMd5 key).run s = (.ok p, s')) :
    p.index = index ∧ p.size = size ∧ ∃ upload, checkPart object index body size = .ok upload := by
  obtain ⟨upload, hcheck, hsend⟩ := Call.exists_passed (congrArg Prod.fst h)
  obtain ⟨reply, hread⟩ := Call.exists_reply hsend
  split at hread
  · cases hread
    exact ⟨rfl, rfl, upload, hcheck⟩
  · cases hread

/-- What it takes to pass the check of a part. -/
theorem checkPart_of_ok {object : Object} {index : UInt32} {body : Bytes} {size : UInt64} {id : String}
    {number : Int32} (hopen : object.openUpload = .ok id) (hnumber : numberOfIndex index = .ok number)
    (hsize : size ≤ Limits.standard.maxPartSize) (hbody : body.length = size.toNat) :
    checkPart object index body size = .ok (id, number) := by
  have hcheck : checkSize body size = .ok () := if_pos hbody
  rw [checkPart]
  refine bind_eq_ok.mpr ⟨id, hopen, bind_eq_ok.mpr ⟨number, hnumber, ?_⟩⟩
  rw [if_neg (UInt64.not_lt.mpr hsize)]
  exact bind_eq_ok.mpr ⟨(), hcheck, rfl⟩

/-- A part that passes the check is told of if the backend replies with a tag. -/
theorem written_of_checkPart {object : Object} {index : UInt32} {body : Bytes} {size : UInt64}
    {upload : String × Int32} (etag : String) (h : checkPart object index body size = .ok upload) :
    Part.Written ⟨index, size, etag⟩ := by
  let m : Mount := ⟨"b", .root, 200, none, none, by decide⟩
  let told : Reply.Stored := ⟨some etag⟩
  refine ⟨Script, inferInstance, m, object, index, body, size, none, none, ⟨[.ok told.reply]⟩, ⟨[]⟩, ?_⟩
  rw [writePart, h]
  rfl

/-- The object that a completion leaves to its caller has the total size of the listed parts. -/
theorem contentLength_of_completed {m : Mount} {σ : Type} [Backend σ] {object completed : Object}
    {parts : List Part} {s s' : σ}
    (h : (m.completeUpload object parts).run s = ((.ok (), completed), s')) :
    completed.contentLength = some (totalSize parts) := by
  rw [completeUpload, Call.run_map] at h
  have hfinish := congrArg Prod.fst h
  rcases hasked : ((m.askCompletion object parts).run s).1 with e | reply
  · rw [hasked, on_finish_error] at hfinish
    cases hfinish
  · rw [hasked, on_finish_ok] at hfinish
    cases hfinish
    rfl

end Mount

/-- **A part that was written** is not larger than a part may be. -/
theorem Part.Written.size_le {p : Part} (h : p.Written) :
    p.size.toNat ≤ Limits.standard.maxPartSize.toNat := by
  obtain ⟨σ, _, m, object, index, body, size, contentMd5, key, s, s', hrun⟩ := h
  obtain ⟨-, hsize, upload, hcheck⟩ := Mount.writePart_ok hrun
  have hle := (Store.checkPart_eq_ok hcheck).2.2.1
  rw [hsize]
  exact UInt64.le_iff_toNat_le.mp hle

/-! ## Sums -/

namespace Mount

/-- Indices that ascend from `low` to below `high` are no more than there are numbers there. -/
theorem length_le_of_ascending {parts : List Part} {low high : Nat}
    (hasc : parts.Pairwise fun p q => p.index < q.index)
    (hlow : ∀ p ∈ parts, low ≤ p.index.toNat) (hhigh : ∀ p ∈ parts, p.index.toNat < high)
    (hle : low ≤ high) : parts.length ≤ high - low := by
  induction parts generalizing low with
  | nil => exact Nat.zero_le _
  | cons p rest ih =>
    obtain ⟨hbelow, hrest⟩ := List.pairwise_cons.mp hasc
    obtain ⟨hp, hhigh⟩ := List.forall_mem_cons.mp hhigh
    have hfirst : low ≤ p.index.toNat := hlow p List.mem_cons_self
    -- The rest starts one further than `low`, since it is above the first.
    have hlow' : ∀ q ∈ rest, low + 1 ≤ q.index.toNat := fun q hq =>
      Nat.lt_of_le_of_lt hfirst (UInt32.lt_iff_toNat_lt.mp (hbelow q hq))
    have hlength := ih hrest hlow' hhigh (Nat.lt_of_le_of_lt hfirst hp)
    rw [List.length_cons]
    omega

/-- A sum is at most as many times the largest size as there are parts. -/
theorem exactSize_le {parts : List Part} {largest : Nat} (h : ∀ p ∈ parts, p.size.toNat ≤ largest) :
    exactSize parts ≤ parts.length * largest := by
  induction parts with
  | nil => exact Nat.zero_le _
  | cons p rest ih =>
    obtain ⟨hp, hrest⟩ := List.forall_mem_cons.mp h
    calc exactSize (p :: rest) = p.size.toNat + exactSize rest := rfl
      _ ≤ largest + rest.length * largest := Nat.add_le_add hp (ih hrest)
      _ = (p :: rest).length * largest := by rw [List.length_cons, Nat.succ_mul, Nat.add_comm]

/-- Parts that all have the same size. -/
theorem exactSize_of_forall {parts : List Part} {size : Nat} (h : ∀ p ∈ parts, p.size.toNat = size) :
    exactSize parts = parts.length * size := by
  induction parts with
  | nil => exact (Nat.zero_mul size).symm
  | cons p rest ih =>
    obtain ⟨hp, hrest⟩ := List.forall_mem_cons.mp h
    calc exactSize (p :: rest) = p.size.toNat + exactSize rest := rfl
      _ = (p :: rest).length * size := by
        rw [hp, ih hrest, List.length_cons, Nat.succ_mul, Nat.add_comm]

end Mount

/-- **The size of a completed object fits.** Parts in ascending order that all have a number are at most
ten thousand. If each of them was written, through whatever mounts and to whatever backends, their
sizes add up to no more than ten thousand times the largest size of a part, and so without overflow.
Any completion from these parts that succeeds tells this sum. -/
theorem completed_size_fits {parts : List Part} {choices : List Request.PartChoice}
    (hne : parts ≠ []) (hasc : Mount.ascending parts = true)
    (hchosen : Mount.chooseParts parts = .ok choices) (hwritten : ∀ p ∈ parts, p.Written) :
    1 ≤ parts.length ∧ parts.length ≤ 10000 ∧
      Mount.exactSize parts ≤ 10000 * (5 * (1024 * 1024 * 1024)) ∧
      (Mount.totalSize parts).toNat = Mount.exactSize parts ∧
      ∀ {σ : Type} [Backend σ] (m : Mount) (object completed : Object) (s s' : σ),
        (m.completeUpload object parts).run s = ((.ok (), completed), s') →
          completed.contentLength = some (Mount.totalSize parts) := by
  have hbounded := Mount.exists_chooseParts.mp ⟨choices, hchosen⟩
  have hlength : parts.length ≤ 10000 - 0 := Mount.length_le_of_ascending
    (Mount.ascending_iff.mp hasc) (fun p _ => Nat.zero_le _) hbounded (Nat.zero_le _)
  have hsize : Mount.exactSize parts ≤ 10000 * (5 * (1024 * 1024 * 1024)) :=
    calc Mount.exactSize parts ≤ parts.length * Limits.standard.maxPartSize.toNat :=
          Mount.exactSize_le fun p hp => (hwritten p hp).size_le
      _ ≤ 10000 * (5 * (1024 * 1024 * 1024)) := Nat.mul_le_mul_right _ hlength
  have hfits : Mount.exactSize parts < UInt64.size := Nat.lt_of_le_of_lt hsize (by decide)
  refine ⟨List.length_pos_of_ne_nil hne, hlength, hsize, Mount.toNat_totalSize hfits, ?_⟩
  intro σ _ m object completed s s' hrun
  exact Mount.contentLength_of_completed hrun

/-- The largest parts, as many as there can be, come to the bound: no smaller one holds. -/
theorem completed_size_fits_largest :
    let largest : UInt64 := 5 * 1024 * 1024 * 1024
    let parts : List Part := (List.range 10000).map fun i => ⟨UInt32.ofNat i, largest, "e"⟩
    (parts ≠ [] ∧ Mount.ascending parts = true ∧ (∃ choices, Mount.chooseParts parts = .ok choices) ∧
        ∀ p ∈ parts, p.Written) ∧
      parts.length ≤ 10000 ∧ (Mount.totalSize parts).toNat = 10000 * (5 * (1024 * 1024 * 1024)) := by
  intro largest parts
  have hmem : ∀ p ∈ parts, ∃ i, i < 10000 ∧ p = ⟨UInt32.ofNat i, largest, "e"⟩ := by
    intro p hp
    obtain ⟨i, hi, rfl⟩ := List.mem_map.mp hp
    exact ⟨i, List.mem_range.mp hi, rfl⟩
  have hindex : ∀ i, i < 10000 → (UInt32.ofNat i).toNat = i := fun i hi =>
    UInt32.toNat_ofNat_of_lt' (Nat.lt_trans hi (by decide))
  have hbounded : ∀ i, i < 10000 → (UInt32.ofNat i).toNat < 10000 := fun i hi => by
    rw [hindex i hi]
    exact hi
  have hlength : parts.length = 10000 := by rw [List.length_map, List.length_range]
  have hne : parts ≠ [] := List.ne_nil_of_length_pos (by rw [hlength]; decide)
  have hasc : Mount.ascending parts = true := by
    refine Mount.ascending_iff.mpr (List.pairwise_map.mpr ?_)
    refine List.pairwise_lt_range.imp_of_mem fun {i j} hi hj hlt => ?_
    rw [UInt32.lt_iff_toNat_lt, hindex i (List.mem_range.mp hi), hindex j (List.mem_range.mp hj)]
    exact hlt
  obtain ⟨choices, hchosen⟩ := Mount.exists_chooseParts.mpr fun p hp => by
    obtain ⟨i, hi, rfl⟩ := hmem p hp
    exact hbounded i hi
  have hwritten : ∀ p ∈ parts, p.Written := by
    intro p hp
    obtain ⟨i, hi, rfl⟩ := hmem p hp
    obtain ⟨number, hnumber⟩ := Mount.exists_numberOfIndex.mpr (hbounded i hi)
    let object := Object.upload "k" "k" "u"
    let body : Bytes := .replicate largest.toNat 0
    have hbody : body.length = largest.toNat := List.length_replicate
    have hcheck : Mount.checkPart object (UInt32.ofNat i) body largest = .ok ("u", number) :=
      Mount.checkPart_of_ok (by decide) hnumber (by decide) hbody
    exact Mount.written_of_checkPart "e" hcheck
  obtain ⟨-, hle, -, htotal, -⟩ := completed_size_fits hne hasc hchosen hwritten
  have hsum : Mount.exactSize parts = parts.length * largest.toNat :=
    Mount.exactSize_of_forall fun p hp => by
      obtain ⟨i, -, rfl⟩ := hmem p hp
      rfl
  refine ⟨⟨hne, hasc, ⟨choices, hchosen⟩, hwritten⟩, hle, ?_⟩
  rw [htotal, hsum, hlength]
  rfl

end ObjectStore

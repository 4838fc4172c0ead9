import ObjectStore.CustomerKey
import ObjectStore.Proofs.Quoting

/-!
# What the inspection text of a customer key tells

The inspection text of a customer key tells its stamp, the algorithm and the MD5 of the secret, and
nothing else: two keys have one text just if they have one stamp. Nor can the secret stand in the text by
chance. Written in Base64 it is a word of 44 characters without a quote, so it would have to stand
between two neighbouring quotes, and all that stands there is too short, the label of the algorithm
excepted (`secretText_in_label`).
-/

namespace ObjectStore

namespace Bytes

/-! ## The characters of Base64 -/

/-- What is true of the padding and of each digit is true of every character. -/
theorem forall_mem_base64Chars {P : Char → Prop} (hpad : P '=') (hdigit : ∀ n, P (base64Digit n))
    (bytes : Bytes) : ∀ c ∈ base64Chars bytes, P c := by
  fun_induction base64Chars bytes with
  | case1 => simp
  | case2 => simp [hpad, hdigit]
  | case3 => simp [hpad, hdigit]
  | case4 a b c rest ih => simpa [hdigit] using ih

/-- No digit is written with an escape. -/
theorem escape_base64Digit (n : UInt8) : Text.escape (base64Digit n) = [base64Digit n] := by
  have hall : ∀ k < 256,
      Text.escape (base64Digit (UInt8.ofNat k)) = [base64Digit (UInt8.ofNat k)] := by
    decide +kernel
  have h := hall n.toNat n.toNat_lt
  rwa [UInt8.ofNat_toNat] at h

theorem escape_of_mem_base64Chars (bytes : Bytes) :
    ∀ c ∈ base64Chars bytes, Text.escape c = [c] :=
  forall_mem_base64Chars (by decide) escape_base64Digit bytes

theorem quote_not_mem_base64Chars (bytes : Bytes) : '"' ∉ base64Chars bytes := fun h =>
  absurd (escape_of_mem_base64Chars bytes '"' h) (by decide)

end Bytes

namespace CustomerKey

/-! ## The pieces of the text -/

/-- The quotes of the inspection text part it into seven pieces. -/
theorem toList_inspect (k : CustomerKey) :
    k.inspect.toList = ['"'].intercalate
      ["CustomerKey \x7b algorithm: ".toList, k.algorithm.toList.flatMap Text.escape,
        ", key: ".toList, "<redacted>".toList.flatMap Text.escape,
        ", key_md5: ".toList, k.secretMd5.toList.flatMap Text.escape, " \x7d".toList] := by
  simp [inspect, Text.record, Text.toList_quote, List.intercalate, String.intercalate_cons_cons,
    String.intercalate_singleton, -List.flatMap_cons]

theorem toList_secretText (k : CustomerKey) : k.secretText.toList = Bytes.base64Chars k.secret := by
  rw [secretText, Bytes.base64, String.toList_ofList]

/-- The secret takes 44 characters. -/
theorem length_secretText (k : CustomerKey) : k.secretText.toList.length = 44 := by
  rw [toList_secretText, Bytes.length_base64Chars, k.length_secret]

theorem flatMap_escape_secretMd5 (k : CustomerKey) :
    k.secretMd5.toList.flatMap Text.escape = k.secretMd5.toList := by
  rw [secretMd5, Bytes.base64, String.toList_ofList]
  exact Text.flatMap_escape_of_forall (Bytes.escape_of_mem_base64Chars _)

theorem length_secretMd5 (k : CustomerKey) : k.secretMd5.toList.length = 24 := by
  rw [secretMd5, Bytes.base64, String.toList_ofList, Bytes.length_base64Chars, length_md5]

/-- If the secret stands in the inspection text, it stands in the label of the algorithm. -/
theorem secretText_in_label {k : CustomerKey} (h : k.secretText.toList <:+: k.inspect.toList) :
    k.secretText.toList <:+: k.algorithm.toList.flatMap Text.escape := by
  have hne : k.secretText.toList ≠ [] :=
    List.ne_nil_of_length_pos (by rw [length_secretText]; decide)
  have hquote : '"' ∉ k.secretText.toList := by
    rw [toList_secretText]
    exact Bytes.quote_not_mem_base64Chars k.secret
  rw [toList_inspect] at h
  obtain ⟨piece, hpiece, hsecret⟩ := Text.exists_infix_of_intercalate hne hquote h
  have hlength : 44 ≤ piece.length := k.length_secretText ▸ hsecret.length_le
  -- Of the pieces in their order, only the label may have 44 characters.
  simp only [List.mem_cons, List.not_mem_nil, or_false] at hpiece
  rcases hpiece with rfl | rfl | rfl | rfl | rfl | rfl | rfl
  · exact absurd hlength (by decide)
  · exact hsecret
  · exact absurd hlength (by decide)
  · exact absurd hlength (by decide)
  · exact absurd hlength (by decide)
  · rw [flatMap_escape_secretMd5, length_secretMd5] at hlength
    exact absurd hlength (by decide)
  · exact absurd hlength (by decide)

/-- The inspection text tells the stamp, and nothing else. -/
theorem inspect_eq_iff {k l : CustomerKey} : k.inspect = l.inspect ↔ k.stamp = l.stamp := by
  constructor
  · intro h
    have hlist := congrArg String.toList h
    simp only [toList_inspect, List.intercalate_cons_cons, List.intercalate_singleton,
      List.append_assoc, List.append_cancel_left_eq, flatMap_escape_secretMd5] at hlist
    -- What is behind the label has one length for all keys.
    obtain ⟨hlabel, hbehind⟩ := List.append_inj' hlist (by simp [length_secretMd5])
    simp only [List.append_cancel_left_eq, List.append_cancel_right_eq] at hbehind
    have halgorithm := String.toList_inj.mp (Text.flatMap_escape_inj hlabel)
    have hmd5 := String.toList_inj.mp hbehind
    rw [stamp, stamp, halgorithm, hmd5]
  · intro h
    obtain ⟨halgorithm, hmd5⟩ := KeyStamp.mk.inj h
    rw [inspect, inspect, halgorithm, hmd5]

end CustomerKey

/-- **The inspection text hides the secret.** For each secret of 32 bytes and each label there is a key,
and another key has the same text just if label and MD5 are the same. Under the label AES256 the text
does not hold the secret in Base64. -/
theorem inspection_hides_secret (secret : Bytes) (hlength : secret.length = 32) (label : String) :
    ∃ k : CustomerKey, CustomerKey.ofSecret label secret = .ok k ∧
      k.algorithm = label ∧ k.secretText = Bytes.base64 secret ∧
      (∀ l : CustomerKey,
        k.inspect = l.inspect ↔ k.algorithm = l.algorithm ∧ k.secretMd5 = l.secretMd5) ∧
      (label = aes256Algorithm →
        ∀ before after, k.inspect ≠ before ++ Bytes.base64 secret ++ after) := by
  let k : CustomerKey := ⟨label, secret, hlength⟩
  refine ⟨k, dif_pos hlength, rfl, rfl, fun l => ?_, fun hlabel before after htext => ?_⟩
  · rw [CustomerKey.inspect_eq_iff, CustomerKey.stamp, CustomerKey.stamp, KeyStamp.mk.injEq]
  · have hsecret : k.secretText.toList <:+: k.inspect.toList :=
      ⟨before.toList, after.toList, by rw [htext]; simp [k, CustomerKey.secretText]⟩
    have hle := (CustomerKey.secretText_in_label hsecret).length_le
    have hshort : (aes256Algorithm.toList.flatMap Text.escape).length = 6 := by decide +kernel
    rw [CustomerKey.length_secretText, show k.algorithm = aes256Algorithm from hlabel, hshort] at hle
    omega

/-- A secret of 32 bytes that are all 9 does not stand in the text of its key. -/
theorem inspection_hides_secret_nines :
    let secret : Bytes := List.replicate 32 9
    secret.length = 32 ∧ ∃ k : CustomerKey, CustomerKey.ofSecret aes256Algorithm secret = .ok k ∧
      k.secretText = "CQkJCQkJCQkJCQkJCQkJCQkJCQkJCQkJCQkJCQkJCQk=" ∧
      ∀ before after, k.inspect ≠ before ++ k.secretText ++ after := by
  intro secret
  obtain ⟨k, hk, -, htext, -, hhidden⟩ := inspection_hides_secret secret rfl aes256Algorithm
  refine ⟨rfl, k, hk, htext.trans (by decide +kernel), ?_⟩
  rw [htext]
  exact hhidden rfl

end ObjectStore

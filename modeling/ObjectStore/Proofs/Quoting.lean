import ObjectStore.Proofs.Numerals
import ObjectStore.Text.Inspect

/-!
# Quoted text

Quoting loses nothing: what stands between the quotes is that of one text only (`flatMap_escape_inj`).
Each escape shows where it ends, since a backslash only begins escapes, the character after it tells
which one, and the digits of a number are closed by a brace. So the characters are read back one by one
(`unescape?_escape`).

Quotes also part a text. A word without a quote that is found in such a text is found between two
neighbouring quotes (`exists_infix_of_intercalate`).
-/

namespace ObjectStore.Text

/-! ## Hexadecimal digits -/

/-- What is true of all digits is true of the digits of a number. -/
theorem forall_mem_toDigits {b : Nat} (hb : 1 < b) {P : Char → Prop}
    (hdigit : ∀ d < b, P (Nat.digitChar d)) (n : Nat) : ∀ c ∈ Nat.toDigits b n, P c := by
  induction n using Nat.strongRecOn with
  | ind n ih =>
    intro c hc
    rw [Nat.toDigits_eq_if hb] at hc
    split at hc
    · rw [List.mem_singleton.mp hc]
      exact hdigit n ‹n < b›
    · rcases List.mem_append.mp hc with hfront | hlast
      · exact ih (n / b) (Nat.div_lt_self (by omega) hb) c hfront
      · rw [List.mem_singleton.mp hlast]
        exact hdigit (n % b) (Nat.mod_lt n (by omega))

/-- The number that hexadecimal digits stand for. -/
def ofHexDigits (digits : List Char) : Nat :=
  digits.foldl (fun value c => 16 * value + "0123456789abcdef".toList.idxOf c) 0

theorem idxOf_digitChar : ∀ d < 16, "0123456789abcdef".toList.idxOf (Nat.digitChar d) = d := by
  decide

theorem ofHexDigits_toDigits (n : Nat) : ofHexDigits (Nat.toDigits 16 n) = n := by
  induction n using Nat.strongRecOn with
  | ind n ih =>
    rw [Nat.toDigits_eq_if (by decide)]
    split
    · rw [ofHexDigits, List.foldl_cons, List.foldl_nil, idxOf_digitChar n ‹_›]
      omega
    · have hfront := ih (n / 16) (Nat.div_lt_self (by omega) (by decide))
      rw [ofHexDigits] at hfront ⊢
      rw [List.foldl_append, hfront, List.foldl_cons, List.foldl_nil,
        idxOf_digitChar (n % 16) (Nat.mod_lt n (by decide))]
      omega

/-! ## Escapes -/

/-- The characters that are escaped by a letter or a mark, with what comes after the backslash. -/
def letterEscapes : List (Char × Char) :=
  [('"', '"'), ('\\', '\\'), ('\n', 'n'), ('\r', 'r'), ('\t', 't'), ('\x00', '0')]

/-- The first character that escaped characters stand for, and those behind it. -/
def unescape? : List Char → Option (Char × List Char)
  | '\\' :: 'u' :: '\x7b' :: rest =>
    (cutAt? '\x7d' rest).map fun p => (Char.ofNat (ofHexDigits p.1), p.2)
  | '\\' :: letter :: rest => (letterEscapes.find? (·.2 == letter)).map fun p => (p.1, rest)
  | ['\\'] => none
  | c :: rest => some (c, rest)
  | [] => none

/-- **An escaped character is read back**, whatever comes behind it. -/
theorem unescape?_escape (c : Char) (rest : List Char) :
    unescape? (escape c ++ rest) = some (c, rest) := by
  fun_cases escape c with
  | case1 | case2 | case3 | case4 | case5 | case6 =>
    subst_vars
    rfl
  | case7 =>
    -- The digits end at the first closing brace, since they hold none.
    have hbrace : '\x7d' ∉ Nat.toDigits 16 c.toNat := fun hmem =>
      forall_mem_toDigits (b := 16) (by decide) (P := (· ≠ '\x7d')) (by decide) _ _ hmem rfl
    simp only [List.append_assoc, List.cons_append, List.nil_append, unescape?]
    rw [cutAt?_append hbrace, Option.map_some, ofHexDigits_toDigits, Char.ofNat_toNat]
  | case8 _ hc =>
    rw [List.singleton_append, unescape?]
    · exact fun _ hslash _ => hc hslash
    · exact fun _ _ hslash _ => hc hslash
    · exact fun hslash _ => hc hslash

theorem flatMap_escape_inj {a b : List Char} (h : a.flatMap escape = b.flatMap escape) : a = b := by
  induction a generalizing b with
  | nil =>
    cases b with
    | nil => rfl
    | cons d b =>
      have hread := unescape?_escape d (b.flatMap escape)
      rw [← List.flatMap_cons, ← h] at hread
      cases hread
  | cons c a ih =>
    have hread := unescape?_escape c (a.flatMap escape)
    rw [← List.flatMap_cons, h] at hread
    cases b with
    | nil => cases hread
    | cons d b =>
      rw [List.flatMap_cons, unescape?_escape] at hread
      obtain ⟨rfl, hrest⟩ := Prod.mk.inj (Option.some.inj hread)
      rw [ih hrest.symm]

theorem toList_quote (text : String) :
    (quote text).toList = '"' :: (text.toList.flatMap escape ++ ['"']) := by
  rw [quote, String.toList_ofList]

/-- Characters that are escaped by themselves stand for themselves. -/
theorem flatMap_escape_of_forall {text : List Char} (h : ∀ c ∈ text, escape c = [c]) :
    text.flatMap escape = text := by
  induction text with
  | nil => rfl
  | cons c text ih =>
    obtain ⟨hc, htext⟩ := List.forall_mem_cons.mp h
    rw [List.flatMap_cons, hc, ih htext, List.singleton_append]

/-! ## Words between marks -/

/-- A word without the mark is found on one of its two sides. -/
theorem infix_of_separated {mark : Char} {word front back : List Char} (hmark : mark ∉ word)
    (h : word <:+: front ++ mark :: back) : word <:+: front ∨ word <:+: back := by
  rcases List.infix_append_iff_ne_nil.mp h with hfront | hback | ⟨u, v, -, hv, rfl, -, hprefix⟩
  · exact .inl hfront
  · rcases List.infix_cons_iff.mp hback with hprefix | hback
    · rcases List.prefix_cons_iff.mp hprefix with rfl | ⟨t, rfl, -⟩
      · exact .inr List.nil_infix
      · exact absurd List.mem_cons_self hmark
    · exact .inr hback
  · -- A word over the mark would hold it.
    rcases List.prefix_cons_iff.mp hprefix with rfl | ⟨t, rfl, -⟩
    · exact absurd rfl hv
    · exact absurd (List.mem_append_right u List.mem_cons_self) hmark

/-- A word without the mark is found in one of the pieces that the mark stands between. -/
theorem exists_infix_of_intercalate {mark : Char} {word : List Char} {pieces : List (List Char)}
    (hne : word ≠ []) (hmark : mark ∉ word) (h : word <:+: [mark].intercalate pieces) :
    ∃ piece ∈ pieces, word <:+: piece := by
  induction pieces with
  | nil => exact absurd (List.infix_nil.mp h) hne
  | cons front pieces ih =>
    cases pieces with
    | nil =>
      rw [List.intercalate_singleton] at h
      exact ⟨front, List.mem_cons_self, h⟩
    | cons next pieces =>
      rw [List.intercalate_cons_cons, List.append_assoc, List.singleton_append] at h
      rcases infix_of_separated hmark h with hfront | hback
      · exact ⟨front, List.mem_cons_self, hfront⟩
      · obtain ⟨piece, hpiece, hword⟩ := ih hback
        exact ⟨piece, List.mem_cons_of_mem front hpiece, hword⟩

end ObjectStore.Text

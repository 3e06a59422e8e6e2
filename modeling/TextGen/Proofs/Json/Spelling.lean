import TextGen.Json.Printer
import TextGen.Proofs.Json.Number

/-!
The tokens of text that is put together from the written forms of tokens, with blanks between them.
A literal that holds a text stands for that text, whatever its characters are.
-/

namespace TextGen.Json

namespace Quoted

section Escaping

theorem hexDigit?_hexChar {n : Nat} (h : n < 16) : hexDigit? (hexChar n) = some n := by
  have hall : ∀ n < 16, hexDigit? (hexChar n) = some n := by decide
  exact hall n h

theorem hexChar_ne_substitute {n : Nat} (h : n < 16) : hexChar n ≠ substitute := by
  have hall : ∀ n < 16, hexChar n ≠ substitute := by decide
  exact hall n h

theorem hexUnit?_hexChar {n : Nat} (h : n < 0x20)
    : hexUnit? '0' '0' (hexChar (n / 16)) (hexChar (n % 16)) = some n := by
  have hzero : hexDigit? '0' = some 0 := by decide
  have hhigh := hexDigit?_hexChar (n := n / 16) (by omega)
  have hlow := hexDigit?_hexChar (n := n % 16) (by omega)
  have hvalue : n / 16 * 16 + n % 16 = n := by omega
  simp [hexUnit?, hzero, hhigh, hlow, hvalue]

theorem escape_cases (c : Char)
    : (∃ mark ∈ ['"', '\\', 'b', 'f', 'n', 'r', 't'], escape c = ['\\', mark] ∧ escaped mark = c)
        ∨ (c.toNat < 0x20
            ∧ escape c = ['\\', 'u', '0', '0', hexChar (c.toNat / 16), hexChar (c.toNat % 16)])
        ∨ (0x20 ≤ c.toNat ∧ c ≠ '"' ∧ c ≠ '\\' ∧ escape c = [c]) := by
  unfold escape
  by_cases hquote : c = '"'
  . exact .inl ⟨'"', by decide, if_pos hquote, hquote.symm⟩
  rw [if_neg hquote]
  by_cases hslash : c = '\\'
  . exact .inl ⟨'\\', by decide, if_pos hslash, hslash.symm⟩
  rw [if_neg hslash]
  by_cases hb : c = '\x08'
  . exact .inl ⟨'b', by decide, if_pos hb, hb.symm⟩
  rw [if_neg hb]
  by_cases hf : c = '\x0c'
  . exact .inl ⟨'f', by decide, if_pos hf, hf.symm⟩
  rw [if_neg hf]
  by_cases hn : c = '\n'
  . exact .inl ⟨'n', by decide, if_pos hn, hn.symm⟩
  rw [if_neg hn]
  by_cases hr : c = '\r'
  . exact .inl ⟨'r', by decide, if_pos hr, hr.symm⟩
  rw [if_neg hr]
  by_cases ht : c = '\t'
  . exact .inl ⟨'t', by decide, if_pos ht, ht.symm⟩
  rw [if_neg ht]
  by_cases hcontrol : c.toNat < 0x20
  . exact .inr (.inl ⟨hcontrol, if_pos hcontrol⟩)
  . exact .inr (.inr ⟨Nat.le_of_not_lt hcontrol, hquote, hslash, if_neg hcontrol⟩)

theorem scan_escape (c : Char) (rest : List Char)
    : scan (escape c ++ rest)
        =
      (⟨escape c ++ (scan rest).1.raw, (scan rest).1.closed⟩, (scan rest).2) := by
  rcases escape_cases c with ⟨mark, hmark, heq, -⟩ | ⟨hcontrol, heq⟩ | ⟨hlow, hquote, hslash, heq⟩
  . have hmarks : mark ∈ ['"', '\\', '/', 'b', 'f', 'n', 'r', 't'] := by
      simp only [List.mem_cons, List.not_mem_nil, or_false] at hmark ⊢
      tauto
    have hu : mark ≠ 'u' := by
      rintro rfl
      exact absurd hmark (by decide)
    rw [heq, List.cons_append, List.cons_append, List.nil_append, scan]
    . rw [if_pos hmarks]
      rfl
    . intro _ _ _ _ _ h _
      exact hu h
  . have hunit : (hexUnit? '0' '0' (hexChar (c.toNat / 16)) (hexChar (c.toNat % 16))).isSome := by
      rw [hexUnit?_hexChar hcontrol]
      rfl
    rw [heq]
    simp only [List.cons_append, List.nil_append]
    rw [scan, if_pos hunit]
  . have hplain : ¬((c.toNat < 0x20 ∧ c ≠ substitute) ∨ c = '\\') := by
      rintro (h | h)
      . omega
      . exact hslash h
    rw [heq, List.cons_append, List.nil_append, scan]
    . rw [if_neg hplain]
      rfl
    all_goals simp_all

theorem scan_ofString (s : String) (rest : List Char)
    : scan (s.toList.flatMap escape ++ '"' :: rest) = (ofString s, rest) := by
  unfold ofString
  induction s.toList with
  | nil => rfl
  | cons c cs ih => rw [List.flatMap_cons, List.append_assoc, scan_escape, ih]

theorem resolve_escape (c : Char) (rest : List Char)
    : resolve (escape c ++ rest) = (resolve rest).map (c :: ·) := by
  rcases escape_cases c with ⟨mark, hmark, heq, hc⟩ | ⟨hcontrol, heq⟩ | ⟨hlow, hquote, hslash, heq⟩
  . have hu : mark ≠ 'u' := by
      rintro rfl
      exact absurd hmark (by decide)
    rw [heq, List.cons_append, List.cons_append, List.nil_append, resolve, hc]
    intro _ _ _ _ _ h _
    exact hu h
  . have hhigh : ¬(0xD800 ≤ c.toNat ∧ c.toNat < 0xDC00) := by omega
    have hlow : ¬(0xDC00 ≤ c.toNat ∧ c.toNat < 0xE000) := by omega
    rw [heq]
    simp only [List.cons_append, List.nil_append]
    rw [resolve, hexUnit?_hexChar hcontrol]
    simp only [Option.bind_eq_bind, Option.bind_some]
    rw [if_neg hhigh, if_neg hlow, Char.ofNat_toNat]
  . have hsub : c ≠ substitute := by
      rintro rfl
      exact absurd hlow (by decide)
    rw [heq, List.cons_append, List.nil_append, resolve]
    . rw [if_neg hsub]
    all_goals simp_all

theorem text?_ofString (s : String) : (ofString s).text? = some s := by
  have hresolve : resolve (s.toList.flatMap escape) = some s.toList := by
    induction s.toList with
    | nil => rfl
    | cons c cs ih => rw [List.flatMap_cons, resolve_escape, ih, Option.map_some]
  simp [text?, ofString, hresolve]

theorem substitute_not_mem_escape (c : Char) : substitute ∉ escape c := by
  rcases escape_cases c with ⟨mark, hmark, heq, -⟩ | ⟨hcontrol, heq⟩ | ⟨hlow, -, -, heq⟩
  . rw [heq]
    rintro h
    simp only [List.mem_cons, List.not_mem_nil, or_false] at h hmark
    rcases h with h | rfl
    . exact absurd h (by decide)
    . revert hmark
      decide
  . have hhigh := hexChar_ne_substitute (n := c.toNat / 16) (by omega)
    have hlow := hexChar_ne_substitute (n := c.toNat % 16) (by omega)
    rw [heq]
    simp only [List.mem_cons, List.not_mem_nil, or_false, hhigh.symm, hlow.symm]
    decide
  . rw [heq, List.mem_singleton]
    rintro rfl
    exact absurd hlow (by decide)

def IsPlain (c : Char) : Prop := 0x20 ≤ c.toNat ∧ c ≠ '"' ∧ c ≠ '\\'

theorem escape_of_isPlain {c : Char} (h : IsPlain c) : escape c = [c] := by
  rcases escape_cases c with ⟨mark, hmark, -, rfl⟩ | ⟨hcontrol, -⟩ | ⟨-, -, -, heq⟩
  . have hall : ∀ mark ∈ ['"', '\\', 'b', 'f', 'n', 'r', 't'],
        escaped mark = '"' ∨ escaped mark = '\\' ∨ (escaped mark).toNat < 0x20 := by simp [escaped]
    rcases hall mark hmark with hquote | hslash | hcontrol
    . exact absurd hquote h.2.1
    . exact absurd hslash h.2.2
    . exact absurd h.1 (Nat.not_le_of_lt hcontrol)
  . exact absurd h.1 (Nat.not_le_of_lt hcontrol)
  . exact heq

theorem isPlain_of_isDigit {c : Char} (h : c.isDigit) : IsPlain c := by
  have hlow : '0'.toNat ≤ c.toNat := (Char.isDigit_iff_toNat.mp h).1
  refine ⟨Nat.le_trans (by decide) hlow, ?_, ?_⟩
  . rintro rfl
    exact absurd h (by decide)
  . rintro rfl
    exact absurd h (by decide)

theorem isPlain_of_mem_render {c : Char} {n : Number} (h : c ∈ n.render) : IsPlain c := by
  rcases n.of_mem_render h with hdigit | rfl | rfl | rfl | rfl
  . exact isPlain_of_isDigit hdigit
  all_goals exact ⟨by decide, by decide, by decide⟩

theorem flatMap_escape_of_isPlain {cs : List Char} (h : ∀ c ∈ cs, IsPlain c)
    : cs.flatMap escape = cs := by
  induction cs with
  | nil => rfl
  | cons c cs ih =>
    rw [List.flatMap_cons, escape_of_isPlain (h c List.mem_cons_self),
      ih fun d hd => h d (List.mem_cons_of_mem _ hd)]
    rfl

end Escaping

end Quoted

namespace Token

section Words

def word : Token → List Char
  | openObject => ['{']
  | closeObject => ['}']
  | openArray => ['[']
  | closeArray => [']']
  | colon => [':']
  | comma => [',']
  | null => "null".toList
  | boolean true => "true".toList
  | boolean false => "false".toList
  | number n => n.render
  | text q => q.render
  | malformed => []

inductive IsWritten : Token → Prop
  | openObject : IsWritten .openObject
  | closeObject : IsWritten .closeObject
  | openArray : IsWritten .openArray
  | closeArray : IsWritten .closeArray
  | colon : IsWritten .colon
  | comma : IsWritten .comma
  | null : IsWritten .null
  | boolean (b : Bool) : IsWritten (.boolean b)
  | number (n : Number) : IsWritten (.number n)
  | text (s : String) : IsWritten (.text (.ofString s))

variable {t : Token} {rest : List Char}

theorem next_of_scan? {c : Char} {cs : List Char} {n : Number} (hc : c = '-' ∨ c.isDigit)
    (h : Number.scan? (c :: cs) = some (n, rest))
    : next (c :: cs) = (.number n, rest) := by
  rw [next]
  . rw [h]
  -- The characters with which the other tokens begin are no signs and no digits.
  all_goals
    intro _ heq
    cases heq
    exact absurd hc (by decide)

theorem next_number (n : Number) (h : Number.IsEnd rest)
    : next (n.render ++ rest) = (.number n, rest) := by
  have hscan := n.scan?_render h
  rcases n.exists_render_eq_cons with ⟨c, cs, heq, hc⟩
  rw [heq] at hscan ⊢
  exact next_of_scan? hc hscan

theorem next_text (s : String)
    : next ((Quoted.ofString s).render ++ rest) = (.text (.ofString s), rest) := by
  have hscan := Quoted.scan_ofString s rest
  have hrender : (Quoted.ofString s).render ++ rest
      = '"' :: (s.toList.flatMap Quoted.escape ++ '"' :: rest) := by
    simp [Quoted.render, Quoted.ofString]
  rw [hrender]
  simp only [next, hscan]

theorem IsWritten.next_word (h : t.IsWritten) (hend : ∀ n, t = .number n → Number.IsEnd rest)
    : next (t.word ++ rest) = (t, rest) := by
  cases h with
  | boolean b => cases b <;> rfl
  | number n => exact next_number n (hend n rfl)
  | text s => exact next_text s
  | _ => rfl

theorem IsWritten.exists_word_eq_cons (h : t.IsWritten)
    : ∃ c cs, t.word = c :: cs ∧ isBlank c = false := by
  cases h with
  | boolean b => cases b <;> exact ⟨_, _, rfl, by decide⟩
  | number n =>
    rcases n.exists_render_eq_cons with ⟨c, cs, heq, hc⟩
    refine ⟨c, cs, heq, ?_⟩
    by_contra hblank
    simp only [isBlank, Bool.not_eq_false, decide_eq_true_eq] at hblank
    rcases hblank with rfl | rfl | rfl | rfl <;> exact absurd hc (by decide)
  | _ => exact ⟨_, _, rfl, by decide⟩

theorem IsWritten.substitute_not_mem_word (h : t.IsWritten) : substitute ∉ t.word := by
  cases h with
  | boolean b => cases b <;> decide
  | number n =>
    intro hmem
    rcases n.of_mem_render hmem with h | h | h | h | h <;> exact absurd h (by decide)
  | text s =>
    have hescape : substitute ∉ s.toList.flatMap Quoted.escape := by
      simp [List.mem_flatMap, Quoted.substitute_not_mem_escape]
    have hquote : substitute ≠ '"' := by decide
    have hword : word (.text (.ofString s)) = '"' :: (s.toList.flatMap Quoted.escape ++ ['"']) :=
      rfl
    rw [hword, List.mem_cons, List.mem_append, List.mem_singleton]
    rintro (h | h | h)
    . exact hquote h
    . exact hescape h
    . exact hquote h
  | _ => decide

end Words

section Spelling

/--
Text that is made of the written forms of tokens, one after the other, with blanks between them.
-/
inductive Spells : List Char → List Token → Prop
  | nil : Spells [] []
  | blank {c : Char} {cs : List Char} {ts : List Token} (hblank : isBlank c) (h : Spells cs ts)
    : Spells (c :: cs) ts
  | word {t : Token} {cs : List Char} {ts : List Token} (ht : t.IsWritten)
    (hend : ∀ n, t = .number n → Number.IsEnd cs) (h : Spells cs ts)
    : Spells (t.word ++ cs) (t :: ts)

variable {cs : List Char} {ts : List Token}

theorem scan_go_blank {c : Char} {fuel : Nat} (h : isBlank c)
    : scan.go (fuel + 1) (c :: cs) = scan.go (fuel + 1) cs := by
  simp only [scan.go, List.dropWhile_cons_of_pos h]

theorem scan_go_word {t : Token} {fuel : Nat} (ht : t.IsWritten)
    (hend : ∀ n, t = .number n → Number.IsEnd cs)
    : scan.go (fuel + 1) (t.word ++ cs) = t :: scan.go fuel cs := by
  rcases ht.exists_word_eq_cons with ⟨c, w, heq, hc⟩
  have hnext := ht.next_word hend
  have hstart : (t.word ++ cs).dropWhile isBlank = t.word ++ cs := by
    rw [heq]
    exact List.dropWhile_cons_of_neg (by simp [hc])
  rw [heq, List.cons_append] at hnext hstart ⊢
  simp only [scan.go, hstart, hnext]

theorem Spells.scan_go (h : Spells cs ts) {fuel : Nat} (hfuel : cs.length ≤ fuel)
    : scan.go fuel cs = ts := by
  induction h generalizing fuel with
  | nil => cases fuel <;> rfl
  | blank hblank h ih =>
    cases fuel with
    | zero => simp at hfuel
    | succ fuel =>
      rw [scan_go_blank hblank]
      exact ih (Nat.le_of_succ_le hfuel)
  | word ht hend h ih =>
    rcases ht.exists_word_eq_cons with ⟨c, w, heq, -⟩
    cases fuel with
    | zero => simp [heq] at hfuel
    | succ fuel =>
      rw [scan_go_word ht hend, ih]
      simp only [heq, List.length_append, List.length_cons] at hfuel
      omega

theorem Spells.scan_eq (h : Spells cs ts) : scan cs = ts := h.scan_go (Nat.le_refl _)

theorem Spells.map_scanned (h : Spells cs ts) : cs.map (fun c => scanned (some c)) = cs := by
  have hclean : substitute ∉ cs := by
    induction h with
    | nil => exact List.not_mem_nil
    | blank hblank h ih =>
      rw [List.mem_cons, not_or]
      refine ⟨?_, ih⟩
      rintro rfl
      exact absurd hblank (by decide)
    | word ht hend h ih =>
      rw [List.mem_append, not_or]
      exact ⟨ht.substitute_not_mem_word, ih⟩
  refine (List.map_congr_left fun c hc => ?_).trans cs.map_id
  have hne : c ≠ substitute := fun heq => hclean (heq ▸ hc)
  simp [scanned, hne]

end Spelling

end Token

end TextGen.Json

import Mathlib.Data.List.TakeDrop
import TextGen.Json.Token

/-!
Numbers are read as they are written: a number is cut from its written form with the same digits,
places and exponent, if the text after it does not go on with the number.
-/

namespace TextGen.Json.Number

/--
Does a number end where this text begins? A digit, a point or the mark of an exponent would be read
as a part of the number.
-/
def IsEnd (rest : List Char) : Prop :=
  ∀ c ∈ rest.head?, ¬c.isDigit ∧ c ≠ '.' ∧ c ≠ 'e' ∧ c ≠ 'E'

theorem isEnd_nil : IsEnd [] := nofun

theorem isEnd_cons {c : Char} {rest : List Char} (h : ¬c.isDigit ∧ c ≠ '.' ∧ c ≠ 'e' ∧ c ≠ 'E')
    : IsEnd (c :: rest) := by
  rintro _ ⟨⟩
  exact h

section Digits

theorem isDigit_toDigits {c : Char} {n : Nat} (h : c ∈ Nat.toDigits 10 n) : c.isDigit :=
  Nat.isDigit_of_mem_toDigits (by decide) (by decide) h

theorem digits?_append {ds rest : List Char} (hne : ds ≠ []) (hds : ∀ c ∈ ds, c.isDigit)
    (hrest : ∀ c ∈ rest.head?, ¬c.isDigit)
    : digits? (ds ++ rest) = some (ds, rest) := by
  have htake : rest.takeWhile Char.isDigit = [] := by
    cases rest with
    | nil => rfl
    | cons c rest => exact List.takeWhile_cons_of_neg (hrest c rfl)
  have hdrop : rest.dropWhile Char.isDigit = rest := by
    cases rest with
    | nil => rfl
    | cons c rest => exact List.dropWhile_cons_of_neg (hrest c rfl)
  have hspan : (ds ++ rest).span Char.isDigit = (ds, rest) := by
    rw [
      List.span_eq_takeWhile_dropWhile,
      List.takeWhile_append_of_pos hds,
      List.dropWhile_append_of_pos hds,
      htake,
      hdrop,
      List.append_nil
    ]
  unfold digits?
  rw [hspan]
  cases ds with
  | nil => exact absurd rfl hne
  | cons d ds => rfl

theorem ofDigits_eq (ds : List Char) : ofDigits ds = Nat.ofDigitChars 10 ds 0 := by
  simp only [ofDigits, Nat.ofDigitChars_eq_foldl, Nat.mul_comm]

theorem ofDigits_padded (k n : Nat)
    : ofDigits (List.replicate k '0' ++ Nat.toDigits 10 n) = n := by
  rw [
    ofDigits_eq,
    Nat.ofDigitChars_append,
    Nat.ofDigitChars_replicate_zero,
    Nat.mul_zero,
    Nat.ofDigitChars_toDigits (by decide) (by decide)
  ]

theorem ofDigits_toDigits (n : Nat) : ofDigits (Nat.toDigits 10 n) = n := ofDigits_padded 0 n

theorem head?_toDigits_ne {n : Nat} (h : 0 < n) : (Nat.toDigits 10 n).head? ≠ some '0' := by
  induction n using Nat.strongRecOn with
  | ind n ih =>
    by_cases hlt : n < 10
    . rw [Nat.toDigits_of_lt_base hlt]
      intro hzero
      have : n.digitChar = '0' := Option.some.inj hzero
      rw [Nat.digitChar_eq_zero] at this
      omega
    . rw [
        Nat.toDigits_of_base_le (by decide) (Nat.le_of_not_lt hlt),
        List.head?_append,
        Option.or_of_isSome (by simp)
      ]
      exact ih (n / 10) (by omega) (by omega)

end Digits

section Parts

def padded (n : Number) : List Char :=
  let ds := Nat.toDigits 10 n.digits
  List.replicate (n.places + 1 - ds.length) '0' ++ ds

def whole (n : Number) : List Char := n.padded.take (n.padded.length - n.places)

def fraction (n : Number) : List Char := n.padded.drop (n.padded.length - n.places)

def point (n : Number) : List Char := if n.places = 0 then [] else '.' :: n.fraction

def power (n : Number) : List Char :=
  match n.exponent with
  | none => []
  | some e => 'e' :: (if e < 0 then '-' else '+') :: Nat.toDigits 10 e.natAbs

theorem render_eq (n : Number)
    : n.render = (if n.negative then ['-'] else []) ++ (n.whole ++ (n.point ++ n.power)) := by
  by_cases h : n.places = 0
  . have hwhole : n.whole = n.padded := by rw [whole, h, Nat.sub_zero, List.take_length]
    cases he : n.exponent <;> simp [render, hwhole, point, padded, power, h, he]
  . cases he : n.exponent <;> simp [render, whole, point, fraction, padded, power, h, he]

variable (n : Number)

theorem lt_length_padded : n.places < n.padded.length := by
  simp only [padded, List.length_append, List.length_replicate]
  omega

theorem isDigit_padded {c : Char} (h : c ∈ n.padded) : c.isDigit := by
  rcases List.mem_append.mp h with hzero | hdigit
  . rw [List.eq_of_mem_replicate hzero]
    rfl
  . exact isDigit_toDigits hdigit

theorem isDigit_whole {c : Char} (h : c ∈ n.whole) : c.isDigit :=
  n.isDigit_padded (List.mem_of_mem_take h)

theorem isDigit_fraction {c : Char} (h : c ∈ n.fraction) : c.isDigit :=
  n.isDigit_padded (List.mem_of_mem_drop h)

theorem length_whole : n.whole.length = n.padded.length - n.places := by
  rw [whole, List.length_take]
  omega

theorem length_fraction : n.fraction.length = n.places := by
  have := n.lt_length_padded
  rw [fraction, List.length_drop]
  omega

theorem whole_ne_nil : n.whole ≠ [] := by
  have := n.lt_length_padded
  rw [← List.length_pos_iff, length_whole]
  omega

theorem ofDigits_whole_fraction : ofDigits (n.whole ++ n.fraction) = n.digits := by
  rw [whole, fraction, List.take_append_drop]
  exact ofDigits_padded _ _

theorem head?_whole_ne (h : 1 < n.whole.length) : n.whole.head? ≠ some '0' := by
  -- The whole part has a leading zero only where it has no other digit: zeros are filled in only
  -- up to the point, and the digits of a number begin with a zero only if it is the number zero.
  rw [length_whole] at h
  have hlength : n.places + 1 < (Nat.toDigits 10 n.digits).length := by
    simp only [padded, List.length_append, List.length_replicate] at h
    omega
  have hpadded : n.padded = Nat.toDigits 10 n.digits := by
    rw [padded, Nat.sub_eq_zero_of_le (Nat.le_of_lt hlength)]
    rfl
  have hpos : 0 < n.digits := by
    by_contra hzero
    have : n.digits = 0 := by omega
    rw [this, Nat.toDigits_zero, List.length_singleton] at hlength
    omega
  rw [whole, List.head?_take, if_neg (by omega), hpadded]
  exact head?_toDigits_ne hpos

theorem render_of_integer (negative : Bool) (digits : Nat)
    : render ⟨negative, digits, 0, none⟩
        =
      (if negative then ['-'] else []) ++ Nat.toDigits 10 digits := by
  have hlength : 0 < (Nat.toDigits 10 digits).length := Nat.length_toDigits_pos
  have hzeros : 1 - (Nat.toDigits 10 digits).length = 0 := by omega
  simp [render, hzeros]

theorem of_mem_render {c : Char} (h : c ∈ n.render)
    : c.isDigit ∨ c = '-' ∨ c = '+' ∨ c = '.' ∨ c = 'e' := by
  simp only [render_eq, List.mem_append] at h
  rcases h with hsign | hwhole | hpoint | hpower
  . split at hsign
    . exact .inr (.inl (List.mem_singleton.mp hsign))
    . exact absurd hsign List.not_mem_nil
  . exact .inl (n.isDigit_whole hwhole)
  . unfold point at hpoint
    split at hpoint
    . exact absurd hpoint List.not_mem_nil
    . rcases List.mem_cons.mp hpoint with hc | hc
      . exact .inr (.inr (.inr (.inl hc)))
      . exact .inl (n.isDigit_fraction hc)
  . unfold power at hpower
    cases he : n.exponent with
    | none => simp [he] at hpower
    | some e =>
      simp only [he, List.mem_cons] at hpower
      rcases hpower with hc | hc | hc
      . exact .inr (.inr (.inr (.inr hc)))
      . split at hc
        . exact .inr (.inl hc)
        . exact .inr (.inr (.inl hc))
      . exact .inl (isDigit_toDigits hc)

theorem exists_render_eq_cons : ∃ c cs, n.render = c :: cs ∧ (c = '-' ∨ c.isDigit) := by
  rw [render_eq]
  by_cases hneg : n.negative = true
  . rw [if_pos hneg]
    exact ⟨_, _, rfl, .inl rfl⟩
  . rw [if_neg hneg]
    cases hwhole : n.whole with
    | nil => exact absurd hwhole n.whole_ne_nil
    | cons c cs => exact ⟨_, _, rfl, .inr (n.isDigit_whole (hwhole ▸ List.mem_cons_self))⟩

end Parts

section Scanning

variable {rest : List Char}

theorem IsEnd.not_isDigit (h : IsEnd rest) : ∀ c ∈ rest.head?, ¬c.isDigit := fun c hc => (h c hc).1

theorem exponent?_of_isEnd (h : IsEnd rest) : exponent? rest = some (none, rest) := by
  cases rest with
  | nil => rfl
  | cons c rest =>
    have hmark : ¬(c = 'e' ∨ c = 'E') := by
      have := h c rfl
      tauto
    simp only [exponent?, if_neg hmark]

theorem exponent?_power (n : Number) (h : IsEnd rest)
    : exponent? (n.power ++ rest) = some (n.exponent, rest) := by
  unfold power
  cases hexponent : n.exponent with
  | none => exact exponent?_of_isEnd h
  | some e =>
    have hdigits : digits? (Nat.toDigits 10 e.natAbs ++ rest)
        = some (Nat.toDigits 10 e.natAbs, rest) :=
      digits?_append Nat.toDigits_ne_nil (fun _ => isDigit_toDigits) h.not_isDigit
    by_cases hneg : e < 0
    . have hvalue : -(e.natAbs : Int) = e := by omega
      simp only [List.cons_append, if_pos hneg, exponent?, true_or, if_true, hdigits,
        Option.map_some, ofDigits_toDigits, hvalue]
    . have hvalue : (e.natAbs : Int) = e := by omega
      simp only [List.cons_append, if_neg hneg, exponent?, true_or, if_true, hdigits,
        Option.map_some, ofDigits_toDigits, hvalue]

theorem not_isDigit_point (n : Number) (h : IsEnd rest)
    : ∀ c ∈ (n.point ++ (n.power ++ rest)).head?, ¬c.isDigit := by
  unfold point power
  by_cases hplaces : n.places = 0
  . cases n.exponent with
    | none => simpa [hplaces] using h.not_isDigit
    | some e => simp [hplaces]
  . simp [hplaces]

theorem not_isDigit_power (n : Number) (h : IsEnd rest)
    : ∀ c ∈ (n.power ++ rest).head?, ¬c.isDigit ∧ c ≠ '.' := by
  unfold power
  cases n.exponent with
  | none => exact fun c hc => ⟨(h c hc).1, (h c hc).2.1⟩
  | some e => simp

theorem unsigned?_render (n : Number) (h : IsEnd rest)
    : unsigned? n.negative (n.whole ++ (n.point ++ (n.power ++ rest))) = some (n, rest) := by
  -- The text of an unsigned number is cut at the end of the whole part, and then at the end of
  -- the places if there are any.
  have hwhole : digits? (n.whole ++ (n.point ++ (n.power ++ rest)))
      = some (n.whole, n.point ++ (n.power ++ rest)) :=
    digits?_append n.whole_ne_nil (fun _ => n.isDigit_whole) (n.not_isDigit_point h)
  have hzero : ¬(n.whole.head? = some '0' ∧ n.whole.length > 1) :=
    fun hz => n.head?_whole_ne hz.2 hz.1
  have hpower := n.not_isDigit_power h
  have hdigits := n.ofDigits_whole_fraction
  unfold unsigned?
  rw [hwhole]
  simp only [Option.bind_eq_bind, Option.bind_some, if_neg hzero]
  by_cases hplaces : n.places = 0
  . have hfraction : n.fraction = [] :=
      List.eq_nil_of_length_eq_zero (n.length_fraction.trans hplaces)
    rw [hfraction] at hdigits
    rw [show n.point = [] from if_pos hplaces, List.nil_append]
    split
    . next heq =>
      rw [heq] at hpower
      exact absurd rfl (hpower '.' rfl).2
    . rw [n.exponent?_power h, Option.bind_some, hdigits, List.length_nil, ← hplaces]
      rfl
  . have hfraction : digits? (n.fraction ++ (n.power ++ rest))
        = some (n.fraction, n.power ++ rest) := by
      refine digits?_append (fun hnil => hplaces ?_) (fun _ => n.isDigit_fraction)
        fun c hc => (hpower c hc).1
      rw [← n.length_fraction, hnil, List.length_nil]
    rw [show n.point = '.' :: n.fraction from if_neg hplaces, List.cons_append]
    simp only [hfraction, Option.bind_some, n.exponent?_power h, hdigits, n.length_fraction]
    rfl

theorem scan?_of_ne {cs : List Char} (h : cs.head? ≠ some '-') : scan? cs = unsigned? false cs := by
  unfold scan?
  split
  . exact absurd rfl h
  . rfl

theorem head?_whole_ne_minus (n : Number) (cs : List Char) : (n.whole ++ cs).head? ≠ some '-' := by
  cases hwhole : n.whole with
  | nil => exact absurd hwhole n.whole_ne_nil
  | cons c ds =>
    intro hminus
    have hdigit : c.isDigit := n.isDigit_whole (hwhole ▸ List.mem_cons_self)
    rw [Option.some.inj hminus] at hdigit
    exact absurd hdigit (by decide)

theorem scan?_render (n : Number) (h : IsEnd rest)
    : scan? (n.render ++ rest) = some (n, rest) := by
  have hunsigned := unsigned?_render n h
  rw [render_eq, List.append_assoc, List.append_assoc, List.append_assoc]
  by_cases hneg : n.negative = true
  . rw [if_pos hneg]
    rw [hneg] at hunsigned
    exact hunsigned
  . rw [if_neg hneg, List.nil_append, scan?_of_ne (n.head?_whole_ne_minus _)]
    rw [Bool.eq_false_iff.mpr hneg] at hunsigned
    exact hunsigned

end Scanning

end TextGen.Json.Number

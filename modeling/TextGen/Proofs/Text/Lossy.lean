import TextGen.Proofs.Text.Lines

/-!
This module contains what lossy decoding means without the machine that does it. At every place the
bytes go on with the encoding of a character, or with the longest possible beginning of one, which
is replaced. From that follows what an incremental decoder shows of tokens whose pieces cut
characters and lines anywhere.
-/

namespace TextGen

open Text

namespace Utf8

variable {bytes part rest : List UInt8} {b : UInt8} {c c' : Char} {p : Pending} {v : Nat}

/-! ## Lossy text -/

def IsSubpart (part : List UInt8) : Prop :=
  (∃ c, part <+: String.utf8EncodeChar c) ∨ part.length = 1

/--
No character starts at the first byte of `part`, and `part` is the longest subpart there.
-/
structure IsInvalidPart (part rest : List UInt8) : Prop where
  unconvertible : ∀ c, ¬String.utf8EncodeChar c <+: part ++ rest
  ne_nil : part ≠ []
  isSubpart : IsSubpart part
  longest : ∀ other, other <+: part ++ rest → IsSubpart other → other <+: part

inductive IsLossyText : List UInt8 → List Char → Prop
  | nil : IsLossyText [] []
  | char {rest : List UInt8} {cs : List Char} (c : Char) (h : IsLossyText rest cs) :
      IsLossyText (String.utf8EncodeChar c ++ rest) (c :: cs)
  | invalid {part rest : List UInt8} {cs : List Char} (hpart : IsInvalidPart part rest)
      (h : IsLossyText rest cs) : IsLossyText (part ++ rest) (replacement :: cs)

theorem encodeChar_ne_nil (c : Char) : String.utf8EncodeChar c ≠ [] := by
  intro h
  have hlength := String.length_utf8EncodeChar c
  have hpos := c.utf8Size_pos
  rw [h, List.length_nil] at hlength
  omega

theorem eq_of_encodeChar_prefix (h : String.utf8EncodeChar c <+: bytes)
    (h' : String.utf8EncodeChar c' <+: bytes) : c = c' := by
  rcases h with ⟨more, rfl⟩
  rcases h' with ⟨more', heq⟩
  have hdecode := @ByteArray.utf8DecodeChar?_utf8EncodeChar_append more.toByteArray c
  have hdecode' := @ByteArray.utf8DecodeChar?_utf8EncodeChar_append more'.toByteArray c'
  rw [← List.toByteArray_append] at hdecode hdecode'
  rw [heq, hdecode] at hdecode'
  exact Option.some.inj hdecode'

theorem IsInvalidPart.eq_of_append_eq {part' rest' : List UInt8} (h : IsInvalidPart part rest)
    (h' : IsInvalidPart part' rest') (heq : part ++ rest = part' ++ rest')
    : part = part' ∧ rest = rest' := by
  have hle : part <+: part' := by
    apply h'.longest part _ h.isSubpart
    rw [← heq]
    exact List.prefix_append _ _
  have hge : part' <+: part := by
    apply h.longest part' _ h'.isSubpart
    rw [heq]
    exact List.prefix_append _ _
  have hpart := hle.eq_of_length_le hge.length_le
  subst hpart
  exact ⟨rfl, List.append_cancel_left heq⟩

theorem IsLossyText.unique {cs cs' : List Char} (h : IsLossyText bytes cs)
    (h' : IsLossyText bytes cs') : cs = cs' := by
  induction h generalizing cs' with
  | nil =>
    generalize hbytes : ([] : List UInt8) = bytes at h'
    cases h' with
    | nil => rfl
    | char c _ => exact absurd (List.append_eq_nil_iff.mp hbytes.symm).1 (encodeChar_ne_nil c)
    | invalid hpart _ => exact absurd (List.append_eq_nil_iff.mp hbytes.symm).1 hpart.ne_nil
  | @char rest cs c _ ih =>
    generalize hbytes : String.utf8EncodeChar c ++ rest = bytes at h'
    cases h' with
    | nil => exact absurd (List.append_eq_nil_iff.mp hbytes).1 (encodeChar_ne_nil c)
    | @char rest' cs' c' h' =>
      have hc : c = c' := by
        apply eq_of_encodeChar_prefix (List.prefix_append (String.utf8EncodeChar c) rest)
        rw [hbytes]
        exact List.prefix_append _ _
      subst hc
      rw [ih (List.append_cancel_left hbytes ▸ h')]
    | @invalid part rest' cs' hpart h' =>
      apply absurd _ (hpart.unconvertible c)
      rw [← hbytes]
      exact List.prefix_append _ _
  | @invalid part rest cs hpart _ ih =>
    generalize hbytes : part ++ rest = bytes at h'
    cases h' with
    | nil => exact absurd (List.append_eq_nil_iff.mp hbytes).1 hpart.ne_nil
    | @char rest' cs' c' h' =>
      apply absurd _ (hpart.unconvertible c')
      rw [hbytes]
      exact List.prefix_append _ _
    | @invalid part' rest' cs' hpart' h' =>
      rcases hpart.eq_of_append_eq hpart' hbytes with ⟨rfl, rfl⟩
      rw [ih h']

/-! ## Encodings digit by digit -/

def weight : Nat → Nat
  | 0 => 1
  | n + 1 => 64 * weight n

def continuation (v : Nat) : Nat → List UInt8
  | 0 => []
  | n + 1 => UInt8.ofNat (v / weight n % 64 + 128) :: continuation v n

def lead (v : Nat) : Nat :=
  if v ≤ 127 then v
  else if v ≤ 2047 then v / 64 + 192
  else if v ≤ 65535 then v / 4096 + 224
  else v / 262144 + 240

def follows (v : Nat) : Nat :=
  if v ≤ 127 then 0
  else if v ≤ 2047 then 1
  else if v ≤ 65535 then 2
  else 3

theorem div_weight_succ (v n : Nat) : v / weight (n + 1) = v / weight n / 64 := by
  rw [weight, Nat.mul_comm, Nat.div_div_eq_div_mul]

theorem ofNat_eq_iff {n : Nat} (h : n < 256) : UInt8.ofNat n = b ↔ n = b.toNat := by
  rw [← UInt8.toNat_inj, UInt8.toNat_ofNat', Nat.mod_eq_of_lt h]

theorem isValidChar_toNat (c : Char) : c.toNat.isValidChar := c.valid

theorem toNat_ofNat (h : v.isValidChar) : (Char.ofNat v).toNat = v := by
  unfold Char.ofNat
  rw [dif_pos h]
  rfl

theorem lead_cases (v : Nat)
    : (v ≤ 127 ∧ lead v = v ∧ follows v = 0)
      ∨ (127 < v ∧ v ≤ 2047 ∧ lead v = v / 64 + 192 ∧ follows v = 1)
      ∨ (2047 < v ∧ v ≤ 65535 ∧ lead v = v / 4096 + 224 ∧ follows v = 2)
      ∨ (65535 < v ∧ lead v = v / 262144 + 240 ∧ follows v = 3) := by
  unfold lead follows
  split
  . omega
  . split
    . omega
    . split <;> omega

theorem lead_lt (h : v.isValidChar) : lead v < 245 := by
  have hlead := lead_cases v
  unfold Nat.isValidChar at h
  omega

theorem encodeChar_eq (c : Char)
    : String.utf8EncodeChar c
        =
      UInt8.ofNat (lead c.toNat) :: continuation c.toNat (follows c.toNat) := by
  have hvalid := isValidChar_toNat c
  unfold String.utf8EncodeChar lead follows
  simp only [show c.val.toNat = c.toNat from rfl]
  generalize c.toNat = v at hvalid ⊢
  by_cases hone : v ≤ 127
  . simp [hone, continuation]
  by_cases htwo : v ≤ 2047
  . simp only [hone, htwo, if_true, if_false, continuation, weight, Nat.div_one]
    rw [show v / 64 % 32 = v / 64 by omega]
  by_cases hthree : v ≤ 65535
  . simp only [hone, htwo, hthree, if_true, if_false, continuation, weight, Nat.div_one]
    rw [show v / 4096 % 16 = v / 4096 by omega]
  . simp only [hone, htwo, hthree, if_false, continuation, weight, Nat.div_one]
    rw [show v / 262144 % 8 = v / 262144 by rcases hvalid with h | h <;> omega]

/-! ## Characters that are left open -/

def Pending.Covers (p : Pending) (v : Nat) : Prop :=
  p.bits * 64 + p.low ≤ v / weight (p.owed - 1) + 128
    ∧ v / weight (p.owed - 1) + 128 ≤ p.bits * 64 + p.high

/--
The bytes `part` are a proper beginning of the encodings of the characters that `p` covers, and of
no others.
-/
structure Opens (part : List UInt8) (p : Pending) : Prop where
  ne_nil : part ≠ []
  owed_pos : 0 < p.owed
  low_ge : 128 ≤ p.low
  low_le : p.low ≤ p.high
  high_le : p.high ≤ 191
  isValidChar : ∀ v, p.Covers v → v.isValidChar
  prefix_iff : ∀ c, part <+: String.utf8EncodeChar c ↔ p.Covers c.toNat
  encode_eq : ∀ c, p.Covers c.toNat →
    String.utf8EncodeChar c = part ++ continuation c.toNat p.owed

theorem weight_pos (n : Nat) : 0 < weight n := by
  induction n with
  | zero => decide
  | succ n ih =>
    rw [weight]
    omega

theorem Opens.exists_character (h : Opens part p)
    : ∃ c more, more ≠ [] ∧ String.utf8EncodeChar c = part ++ more := by
  have hcovers : p.Covers ((p.bits * 64 + p.low - 128) * weight (p.owed - 1)) := by
    have hlow := h.low_ge
    have hhigh := h.low_le
    unfold Pending.Covers
    rw [Nat.mul_div_cancel _ (weight_pos _)]
    omega
  have hvalid := h.isValidChar _ hcovers
  rw [← toNat_ofNat hvalid] at hcovers
  refine ⟨_, _, ?_, h.encode_eq _ hcovers⟩
  cases howed : p.owed with
  | zero => exact absurd howed (Nat.ne_of_gt h.owed_pos)
  | succ n => simp [continuation]

theorem Opens.not_prefix (h : Opens part p) (c : Char) : ¬String.utf8EncodeChar c <+: part := by
  intro hbegins
  rcases h.exists_character with ⟨c', more, hmore, hc'⟩
  have hpart : part <+: String.utf8EncodeChar c' := by
    rw [hc']
    exact List.prefix_append _ _
  have hc := eq_of_encodeChar_prefix (hbegins.trans hpart) List.prefix_rfl
  subst hc
  have hlength := hbegins.length_le
  rw [hc', List.length_append] at hlength
  have hpos := List.length_pos_iff.mpr hmore
  omega

theorem Opens.concat_prefix_iff (h : Opens part p) (b : UInt8) (c : Char)
    : part ++ [b] <+: String.utf8EncodeChar c
        ↔
      p.Covers c.toNat ∧ c.toNat / weight (p.owed - 1) % 64 + 128 = b.toNat := by
  have howed : p.owed = (p.owed - 1) + 1 := by
    have := h.owed_pos
    omega
  have hlt : c.toNat / weight (p.owed - 1) % 64 + 128 < 256 := by omega
  rw [← ofNat_eq_iff hlt]
  constructor
  . intro hbegins
    have hcovers := (h.prefix_iff c).mp ((List.prefix_append part [b]).trans hbegins)
    rw [h.encode_eq c hcovers, howed, continuation, List.prefix_append_right_inj,
      List.cons_prefix_cons] at hbegins
    exact ⟨hcovers, hbegins.1.symm⟩
  . rintro ⟨hcovers, hbyte⟩
    rw [h.encode_eq c hcovers, howed, continuation, List.prefix_append_right_inj, hbyte,
      List.cons_prefix_cons]
    exact ⟨rfl, List.nil_prefix⟩

theorem lead_prefix_iff (b : UInt8) (c : Char)
    : [b] <+: String.utf8EncodeChar c ↔ lead c.toNat = b.toNat := by
  have hlt := lead_lt (isValidChar_toNat c)
  rw [encodeChar_eq, List.cons_prefix_cons, ← ofNat_eq_iff (by omega)]
  constructor
  . intro h
    exact h.1.symm
  . intro h
    exact ⟨h.symm, List.nil_prefix⟩

/-! ## What one byte does -/

theorem start_inv {n : Nat} (h : start n = ([], some p))
    : (∀ v, p.Covers v ↔ v.isValidChar ∧ lead v = n)
        ∧ (∀ v, lead v = n → follows v = p.owed)
        ∧ 0 < p.owed ∧ 128 ≤ p.low ∧ p.low ≤ p.high ∧ p.high ≤ 191 := by
  unfold start at h
  repeat' split at h
  all_goals
    simp only [Prod.mk.injEq, Option.some.injEq, reduceCtorEq, and_false, List.cons_ne_nil,
      true_and] at h
  all_goals
    subst h
    refine ⟨?_, ?_, by simp⟩
    all_goals
      intro v
      have hlead := lead_cases v
      simp only [Pending.Covers, Nat.isValidChar, weight, Nat.reduceSub, Nat.reduceMul]
      omega

theorem opens_of_start (h : start b.toNat = ([], some p)) : Opens [b] p := by
  rcases start_inv h with ⟨hcovers, hfollows, howed, hlow, hle, hhigh⟩
  refine ⟨by simp, howed, hlow, hle, hhigh, fun v hv => ((hcovers v).mp hv).1, ?_, ?_⟩
  . intro c
    rw [lead_prefix_iff, hcovers]
    simp [isValidChar_toNat]
  . intro c hc
    have hlead := ((hcovers _).mp hc).2
    have hlt := lead_lt (isValidChar_toNat c)
    rw [encodeChar_eq, hfollows _ hlead, (ofNat_eq_iff (by omega)).mpr hlead]
    rfl

theorem start_eq (n : Nat)
    : (n ≤ 127 ∧ start n = ([some (Char.ofNat n)], none))
      ∨ (∃ p, start n = ([], some p))
      ∨ ((∀ v, v.isValidChar → lead v ≠ n) ∧ start n = ([none], none)) := by
  unfold start
  repeat' split
  . left
    exact ⟨by omega, rfl⟩
  all_goals
    right
    first
      | exact .inl ⟨_, rfl⟩
      | right
        refine ⟨?_, rfl⟩
        intro v hvalid
        have hlead := lead_cases v
        unfold Nat.isValidChar at hvalid
        omega

theorem start_cases (b : UInt8)
    : (∃ c, String.utf8EncodeChar c = [b] ∧ start b.toNat = ([some c], none))
      ∨ (∃ p, Opens [b] p ∧ start b.toNat = ([], some p))
      ∨ ((∀ c, ¬[b] <+: String.utf8EncodeChar c) ∧ start b.toNat = ([none], none)) := by
  rcases start_eq b.toNat with ⟨hlt, hstart⟩ | ⟨p, hstart⟩ | ⟨hlead, hstart⟩
  . left
    refine ⟨_, ?_, hstart⟩
    have hvalid : b.toNat.isValidChar := .inl (by omega)
    rw [encodeChar_eq, toNat_ofNat hvalid]
    simp [lead, follows, continuation, hlt]
  . right; left
    exact ⟨p, opens_of_start hstart, hstart⟩
  . right; right
    refine ⟨?_, hstart⟩
    intro c
    rw [lead_prefix_iff]
    exact hlead _ (isValidChar_toNat c)

theorem Opens.concat (h : Opens part p) (hb : p.low ≤ b.toNat ∧ b.toNat ≤ p.high)
    {n : Nat} (howed : p.owed = n + 2)
    : Opens (part ++ [b]) ⟨p.bits * 64 + (b.toNat - 128), n + 1, 128, 191⟩ := by
  have hlow := h.low_ge
  have hhigh := h.high_le
  have hcovers : ∀ v, Pending.Covers ⟨p.bits * 64 + (b.toNat - 128), n + 1, 128, 191⟩ v
      ↔ p.Covers v ∧ v / weight (p.owed - 1) % 64 + 128 = b.toNat := by
    intro v
    simp only [Pending.Covers, howed, show n + 2 - 1 = n + 1 from rfl, Nat.add_sub_cancel,
      div_weight_succ]
    generalize v / weight n = d
    omega
  refine ⟨by simp, by simp, by simp, by simp, by simp, ?_, ?_, ?_⟩
  . intro v hv
    exact h.isValidChar v ((hcovers v).mp hv).1
  . intro c
    rw [h.concat_prefix_iff, hcovers]
  . intro c hc
    rcases (hcovers _).mp hc with ⟨hc, hbyte⟩
    rw [h.encode_eq c hc, howed, continuation, show n + 1 = p.owed - 1 by omega,
      (ofNat_eq_iff (by omega)).mpr hbyte, List.append_assoc]
    rfl

theorem Opens.encode_last (h : Opens part p) (hb : p.low ≤ b.toNat ∧ b.toNat ≤ p.high)
    (howed : p.owed = 1)
    : String.utf8EncodeChar (Char.ofNat (p.bits * 64 + (b.toNat - 128))) = part ++ [b] := by
  have hlow := h.low_ge
  have hhigh := h.high_le
  have hcovers : p.Covers (p.bits * 64 + (b.toNat - 128)) := by
    simp only [Pending.Covers, howed, Nat.sub_self, weight, Nat.div_one]
    omega
  have hvalid := h.isValidChar _ hcovers
  have hdigit : (p.bits * 64 + (b.toNat - 128)) / weight 0 % 64 + 128 = b.toNat := by
    rw [weight, Nat.div_one]
    omega
  rw [h.encode_eq, toNat_ofNat hvalid, howed, continuation, (ofNat_eq_iff (by omega)).mpr hdigit]
  . rfl
  . rwa [toNat_ofNat hvalid]

theorem step_cases (h : Opens part p) (b : UInt8)
    : (∃ c, String.utf8EncodeChar c = part ++ [b] ∧ step (some p) b = ([some c], none))
      ∨ (∃ p', Opens (part ++ [b]) p' ∧ step (some p) b = ([], some p'))
      ∨ ((∀ c, ¬part ++ [b] <+: String.utf8EncodeChar c)
        ∧ step (some p) b = (none :: (step none b).1, (step none b).2)) := by
  unfold step
  dsimp only
  by_cases hb : p.low ≤ b.toNat ∧ b.toNat ≤ p.high
  . rw [if_pos hb]
    by_cases howed : p.owed ≤ 1
    . rw [if_pos howed]
      have hpos := h.owed_pos
      exact .inl ⟨_, h.encode_last hb (by omega), rfl⟩
    . rw [if_neg howed]
      right; left
      obtain ⟨n, hn⟩ : ∃ n, p.owed = n + 2 := ⟨p.owed - 2, by omega⟩
      refine ⟨_, h.concat hb hn, ?_⟩
      rw [hn]
      rfl
  . rw [if_neg hb]
    right; right
    refine ⟨?_, rfl⟩
    intro c hbegins
    rcases (h.concat_prefix_iff b c).mp hbegins with ⟨hcovers, hbyte⟩
    have hlow := h.low_ge
    have hhigh := h.high_le
    unfold Pending.Covers at hcovers
    omega

/-! ## Lossy decoding -/

theorem isInvalidPart (hne : part ≠ []) (hsub : IsSubpart part)
    (hnot : ∀ c, ¬String.utf8EncodeChar c <+: part)
    (hrest : ∀ b more, rest = b :: more → ∀ c, ¬part ++ [b] <+: String.utf8EncodeChar c)
    : IsInvalidPart part rest := by
  -- Everything longer than `part` begins with `part` and one byte that cannot follow.
  have hlonger : ∀ other c, other <+: part ++ rest → part <+: other →
      other <+: String.utf8EncodeChar c → other = part := by
    intro other c hother hpart hbegins
    rcases hpart with ⟨more, rfl⟩
    cases more with
    | nil => simp
    | cons b more =>
      rcases (List.prefix_append_right_inj part).mp hother with ⟨others, hothers⟩
      have hconcat : part ++ [b] <+: part ++ b :: more := ⟨more, by simp⟩
      exact absurd (hconcat.trans hbegins) (hrest b (more ++ others) hothers.symm c)
  refine ⟨?_, hne, hsub, ?_⟩
  . intro c hc
    rcases List.prefix_or_prefix_of_prefix hc (List.prefix_append part rest) with hbegins | hbegins
    . exact hnot c hbegins
    . have hsame := hlonger _ c hc hbegins List.prefix_rfl
      exact hnot c (hsame ▸ List.prefix_rfl)
  . intro other hother hsubpart
    rcases List.prefix_or_prefix_of_prefix hother (List.prefix_append part rest) with
      hbegins | hbegins
    . exact hbegins
    . rcases hsubpart with ⟨c, hc⟩ | hlength
      . have hsame := hlonger other c hother hbegins hc
        exact hsame ▸ List.prefix_rfl
      . have hpos := List.length_pos_iff.mpr hne
        have hsame := hbegins.eq_of_length_le (by omega)
        exact hsame ▸ List.prefix_rfl

theorem Opens.isInvalidPart (h : Opens part p)
    (hrest : ∀ b more, rest = b :: more → ∀ c, ¬part ++ [b] <+: String.utf8EncodeChar c)
    : IsInvalidPart part rest := by
  rcases h.exists_character with ⟨c, more, _, hc⟩
  apply Utf8.isInvalidPart h.ne_nil _ h.not_prefix hrest
  exact .inl ⟨c, by simp [hc]⟩

theorem isInvalidPart_singleton (h : ∀ c, ¬[b] <+: String.utf8EncodeChar c) (rest : List UInt8)
    : IsInvalidPart [b] rest := by
  apply Utf8.isInvalidPart (by simp) (.inr rfl)
  . intro c hc
    have hpos := List.length_pos_iff.mpr (encodeChar_ne_nil c)
    have hsame := hc.eq_of_length_le hpos
    exact h c (hsame ▸ List.prefix_rfl)
  . intro b' _ _ c hc
    exact h c ((List.prefix_append [b] [b']).trans hc)

theorem isLossyText_go (bytes : List UInt8)
    : IsLossyText bytes ((units.go none bytes).map (·.getD replacement))
      ∧ ∀ part p, Opens part p →
        IsLossyText (part ++ bytes) ((units.go (some p) bytes).map (·.getD replacement)) := by
  induction bytes with
  | nil =>
    constructor
    . exact .nil
    . intro part p h
      exact .invalid (h.isInvalidPart (by simp)) .nil
  | cons b bytes ih =>
    have hnone : IsLossyText (b :: bytes)
        ((units.go none (b :: bytes)).map (·.getD replacement)) := by
      unfold units.go step
      dsimp only
      rcases start_cases b with ⟨c, hc, hstart⟩ | ⟨p, hp, hstart⟩ | ⟨hnot, hstart⟩
      . rw [hstart]
        have hchar := IsLossyText.char c ih.1
        rw [hc] at hchar
        exact hchar
      . rw [hstart]
        exact ih.2 [b] p hp
      . rw [hstart]
        exact .invalid (isInvalidPart_singleton hnot bytes) ih.1
    refine ⟨hnone, ?_⟩
    intro part p h
    rw [units.go]
    rcases step_cases h b with ⟨c, hc, hstep⟩ | ⟨p', hp', hstep⟩ | ⟨hnot, hstep⟩
    . rw [hstep]
      have hchar := IsLossyText.char c ih.1
      rw [hc, List.append_assoc] at hchar
      exact hchar
    . rw [hstep]
      have hopen := ih.2 _ p' hp'
      rw [List.append_assoc] at hopen
      exact hopen
    . rw [hstep]
      refine .invalid (h.isInvalidPart ?_) hnone
      intro b' more heq
      cases heq
      exact hnot

theorem isLossyText_iff (bytes : List UInt8) (cs : List Char)
    : IsLossyText bytes cs ↔ cs = (decodeLossy bytes).toList := by
  have hlossy : IsLossyText bytes (decodeLossy bytes).toList := by
    unfold decodeLossy
    rw [String.toList_ofList]
    exact (isLossyText_go bytes).1
  constructor
  . intro h
    exact h.unique hlossy
  . rintro rfl
    exact hlossy

-- A character that is cut off, an overlong form and a surrogate.
example : decodeLossy [0xE2, 0x82, 0x41, 0xC0, 0x80, 0xED, 0xA0, 0x80]
    = "\uFFFDA\uFFFD\uFFFD\uFFFD\uFFFD\uFFFD" := by
  decide

/-! ## Encoded text -/

theorem go_of_opens {c : Char} {more : List UInt8} (h : Opens part p)
    (hc : String.utf8EncodeChar c = part ++ more) (rest : List UInt8)
    : units.go (some p) (more ++ rest) = some c :: units.go none rest := by
  induction more generalizing part p with
  | nil =>
    rw [List.append_nil] at hc
    exact absurd (hc ▸ List.prefix_rfl) (h.not_prefix c)
  | cons b more ih =>
    have hconcat : part ++ [b] <+: String.utf8EncodeChar c := by
      rw [hc]
      exact ⟨more, by simp⟩
    rw [List.cons_append, units.go]
    rcases step_cases h b with ⟨c', hc', hstep⟩ | ⟨p', hp', hstep⟩ | ⟨hnot, _⟩
    . rw [← hc'] at hconcat
      have hsame := eq_of_encodeChar_prefix hconcat List.prefix_rfl
      subst hsame
      have hmore : more = [] := by
        have hlength := congrArg List.length (hc.symm.trans hc')
        simp only [List.length_append, List.length_cons, List.length_nil] at hlength
        exact List.length_eq_zero_iff.mp (by omega)
      rw [hstep, hmore]
      rfl
    . rw [hstep]
      apply ih hp'
      simp [hc]
    . exact absurd hconcat (hnot c)

theorem units_encodeChar_append (c : Char) (rest : List UInt8)
    : units (String.utf8EncodeChar c ++ rest) = some c :: units rest := by
  cases hc : String.utf8EncodeChar c with
  | nil => exact absurd hc (encodeChar_ne_nil c)
  | cons b more =>
    have hfirst : [b] <+: String.utf8EncodeChar c := by
      rw [hc]
      exact ⟨more, rfl⟩
    unfold units
    rw [List.cons_append, units.go]
    unfold step
    dsimp only
    rcases start_cases b with ⟨c', hc', hstart⟩ | ⟨p, hp, hstart⟩ | ⟨hnot, _⟩
    . rw [← hc'] at hfirst
      have hsame := eq_of_encodeChar_prefix hfirst List.prefix_rfl
      subst hsame
      rw [hc'] at hc
      cases hc
      rw [hstart]
      rfl
    . rw [hstart]
      exact go_of_opens hp hc rest
    . exact absurd hfirst (hnot c)

theorem units_encode (s : String) : units (encode s) = s.toList.map some := by
  unfold encode
  induction s.toList with
  | nil => rfl
  | cons c cs ih => rw [List.flatMap_cons, units_encodeChar_append, ih, List.map_cons]

end Utf8

namespace IncrementalText

theorem stream_ofPieces (pieces : List (TokenId × List UInt8)) (ids : List TokenId)
    : let table := PieceTable.ofPieces pieces
      ∃ text : String, table.codec.decode ids = .ok text
        ∧ (∀ cs, Utf8.IsLossyText (table.bytes ids) cs ↔ cs = text.toList)
        ∧ stream table.codec ids = (.ok (text ++ "\n"), empty) := by
  intro table
  have hdecode : ∀ ids, table.codec.decode ids = .ok (Utf8.decodeLossy (table.bytes ids)) :=
    PieceTable.decode_ofPieces pieces
  have happend : ∀ part more, IsWhole (Utf8.decodeLossy (table.bytes part)) →
      Utf8.decodeLossy (table.bytes (part ++ more))
        = Utf8.decodeLossy (table.bytes part) ++ Utf8.decodeLossy (table.bytes more) := by
    intro part more hwhole
    rw [PieceTable.bytes_append, Utf8.decodeLossy_append hwhole]
  refine ⟨_, hdecode ids, Utf8.isLossyText_iff _, ?_⟩
  have hdivision := isDivision_divide (fun ids => Utf8.decodeLossy (table.bytes ids)) []
    (by simp) ids
  rw [List.nil_append] at hdivision
  rw [stream_eq_divide hdecode, join_of_isDivision _ hdivision]
  . intro part more hline
    exact happend part more hline.isWhole
  . intro part more hwhole
    rw [happend part more hwhole]
    simp

end IncrementalText

end TextGen

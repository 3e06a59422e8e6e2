import TextGen.Proofs.Sampling.Ranking

/-!
This module contains what the two cuts leave of a list of candidates. As long as no two candidates
share an identifier, it depends on the set of candidates alone: neither the order of the list nor
the way in which the best few are picked out of it can be seen in the result.
-/

namespace TextGen

namespace Candidate

variable {a b : Candidate} {all other arranged : List Candidate} {count : Nat} {share : Float32}

def RanksAhead (a b : Candidate) : Prop := a.ranksBefore b = true ∧ ¬b.ranksBefore a = true

theorem ranksAhead_of_not (h : ¬b.ranksBefore a = true) : a.RanksAhead b :=
  ⟨ranksBefore_of_not h, h⟩

theorem ranksAhead_of_orderKey_lt (h : Binary32.orderKey b.bits < Binary32.orderKey a.bits)
    : a.RanksAhead b := by
  unfold RanksAhead
  rw [ranksBefore_eq_true_iff, ranksBefore_eq_true_iff]
  omega

theorem ranksAhead_of_score_lt (h : b.score < a.score) : a.RanksAhead b := by
  have hlt := Binary32.lt_iff.mp h
  have hkey := Binary32.orderKey_lt_of_rankOf_lt hlt.2
  rw [toBits_score hlt.1.1, toBits_score hlt.1.2] at hkey
  exact ranksAhead_of_orderKey_lt hkey

theorem ranksAhead_of_id_lt (hbits : a.bits = b.bits) (hid : a.id < b.id) : a.RanksAhead b := by
  unfold RanksAhead
  rw [ranksBefore_eq_true_iff, ranksBefore_eq_true_iff, hbits]
  have := Int.not_le.mpr hid
  have := Int.le_of_lt hid
  grind

def IsPositiveNaN (c : Candidate) : Prop :=
  0x7f800000 < c.bits.toNat ∧ c.bits.toNat < 0x80000000

def IsNegativeNaN (c : Candidate) : Prop := 0xff800000 < c.bits.toNat

theorem ranksAhead_of_isPositiveNaN (ha : a.IsPositiveNaN) (hb : ¬b.IsPositiveNaN)
    : a.RanksAhead b := by
  apply ranksAhead_of_orderKey_lt
  have hword : wordCount 31 = 0x80000000 := rfl
  unfold IsPositiveNaN at ha hb
  unfold Binary32.orderKey
  rw [hword, if_pos ha.2]
  split <;> omega

theorem ranksAhead_of_isNegativeNaN (ha : ¬a.IsNegativeNaN) (hb : b.IsNegativeNaN)
    : a.RanksAhead b := by
  apply ranksAhead_of_orderKey_lt
  have hword : wordCount 31 = 0x80000000 := rfl
  unfold IsNegativeNaN at ha hb
  unfold Binary32.orderKey
  rw [hword, if_neg (by omega : ¬b.bits.toNat < 0x80000000)]
  split <;> omega

/-! ## One ranking for all orders of a list -/

theorem eq_ranked_of_pairwise (hperm : arranged.Perm all)
    (hsorted : arranged.Pairwise fun a b => a.ranksBefore b = true) : arranged = ranked all := by
  apply List.Perm.eq_of_pairwise _ hsorted (pairwise_ranked all)
  . exact hperm.trans (perm_ranked all).symm
  . intro a b _ _ hab hba
    exact ranksBefore_antisymm hab hba

theorem ranked_eq_of_perm (hperm : other.Perm all) : ranked other = ranked all := by
  apply eq_ranked_of_pairwise _ (pairwise_ranked other)
  exact (perm_ranked other).trans hperm

theorem pairwise_ranksAhead_ranked (hids : (all.map (·.id)).Nodup)
    : (ranked all).Pairwise RanksAhead := by
  have hnodup : (ranked all).Nodup := (perm_ranked all).nodup_iff.mpr (List.Nodup.of_map _ hids)
  apply List.Pairwise.imp _ ((pairwise_ranked all).and hnodup)
  intro a b hab
  apply And.intro hab.1
  intro hba
  exact hab.2 (ranksBefore_antisymm hab.1 hba)

/-! ## The best few -/

structure HoldsBest (kept all : List Candidate) (count : Nat) : Prop where
  length_eq : kept.length = count
  increasing : kept.Pairwise RanksAhead
  mem : ∀ c ∈ kept, c ∈ all
  ahead : ∀ c ∈ kept, ∀ d ∈ all, d ∉ kept → c.RanksAhead d

theorem topK_eq_take (hpos : 0 < count) (hlt : count < all.length)
    : topK all count = (ranked all).take count := by
  unfold topK
  rw [if_neg]
  omega

theorem holdsBest_topK (hids : (all.map (·.id)).Nodup) (hpos : 0 < count) (hlt : count < all.length)
    : HoldsBest (topK all count) all count := by
  rw [topK_eq_take hpos hlt]
  have hbest := isBest_of_perm_take hids (Nat.le_of_lt hlt) (List.Perm.refl _)
  constructor
  . exact hbest.length_eq
  . exact (pairwise_ranksAhead_ranked hids).sublist (List.take_sublist _ _)
  . exact hbest.mem
  . intro c hc d hd hdropped
    exact ranksAhead_of_not (hbest.ahead c hc d hd hdropped)

theorem ranked_take_of_selected (hperm : arranged.Perm all) (hle : count ≤ all.length)
    (hselected : ∀ a ∈ arranged.take count, ∀ b ∈ arranged.drop count, a.ranksBefore b = true)
    : ranked (arranged.take count) = (ranked all).take count := by
  have hwhole : ranked (arranged.take count) ++ ranked (arranged.drop count) = ranked all := by
    apply eq_ranked_of_pairwise
    . have hparts := (perm_ranked (arranged.take count)).append (perm_ranked (arranged.drop count))
      rw [List.take_append_drop] at hparts
      exact hparts.trans hperm
    . rw [List.pairwise_append]
      refine ⟨pairwise_ranked _, pairwise_ranked _, ?_⟩
      intro a ha b hb
      apply hselected
      . exact (perm_ranked _).mem_iff.mp ha
      . exact (perm_ranked _).mem_iff.mp hb
  have hlength : (ranked (arranged.take count)).length = count := by
    rw [length_ranked, List.length_take, hperm.length_eq]
    omega
  rw [← hwhole, List.take_left' hlength]

/-! ## The best share -/

def massOfFirst (sorted : List Candidate) (length : Nat) : Float32 :=
  let ws := weights sorted (sorted.head?.elim 0 (·.score))
  (ws.take length).foldl (fun sum w => sum + w / ws.foldl (· + ·) 0) 0

/--
What is kept is the shortest ranked list, of one candidate at least, whose mass reaches the share,
or the whole list if none does.
-/
structure HoldsMass (kept all : List Candidate) (share : Float32) : Prop where
  shortest : ∃ length, kept = (ranked all).take length ∧ length ≤ all.length
    ∧ (∀ shorter, 1 ≤ shorter → shorter < length → ¬share ≤ massOfFirst (ranked all) shorter)
    ∧ (length < all.length → share ≤ massOfFirst (ranked all) length)
  ne_nil : all ≠ [] → kept ≠ []

theorem massPrefix_shortest (total : Float32) (ws : List Float32) (sum : Float32)
    : massPrefix share total ws sum ≤ ws.length
        ∧ (∀ shorter, 1 ≤ shorter → shorter < massPrefix share total ws sum →
          ¬share ≤ (ws.take shorter).foldl (fun sum w => sum + w / total) sum)
        ∧ (massPrefix share total ws sum < ws.length →
          share ≤ (ws.take (massPrefix share total ws sum)).foldl
            (fun sum w => sum + w / total) sum) := by
  induction ws generalizing sum with
  | nil => simp [massPrefix]
  | cons w ws ih =>
    have hrest := ih (sum + w / total)
    unfold massPrefix
    dsimp only
    split
    . next hreached =>
      refine ⟨by simp, by omega, ?_⟩
      intro _
      exact hreached
    . next hshort =>
      refine ⟨Nat.succ_le_succ hrest.1, ?_, ?_⟩
      . intro shorter hpos hlt
        cases shorter with
        | zero => contradiction
        | succ shorter =>
          rw [List.take_succ_cons, List.foldl_cons]
          -- A prefix of one weight is the step itself; a longer one is a prefix of the rest.
          cases Nat.eq_zero_or_pos shorter with
          | inl hzero => rw [hzero]; exact hshort
          | inr hmore => exact hrest.2.1 shorter hmore (Nat.lt_of_succ_lt_succ hlt)
      . intro hlt
        rw [List.take_succ_cons, List.foldl_cons]
        exact hrest.2.2 (Nat.lt_of_succ_lt_succ hlt)

theorem holdsMass_topP (hpos : 0 < share) (hlt : share < 1)
    : HoldsMass (topP all share) all share := by
  have hlength := length_ranked all
  constructor
  . unfold topP massOfFirst
    rw [if_pos ⟨hpos, hlt⟩]
    cases hranked : ranked all with
    | nil =>
      rw [hranked] at hlength
      exists 0
      simp [← hlength]
    | cons first rest =>
      rw [hranked] at hlength
      have hshortest := @massPrefix_shortest share
        ((weights (first :: rest) first.score).foldl (· + ·) 0)
        (weights (first :: rest) first.score) 0
      have hweights : (weights (first :: rest) first.score).length = all.length := by
        rw [← hlength]
        unfold weights
        rw [List.length_map]
      rw [hweights] at hshortest
      exact ⟨_, rfl, hshortest⟩
  . intro hne
    cases topP_cases hne share with
    | inl hkept =>
      rw [hkept]
      exact hne
    | inr hcut =>
      cases hcut with
      | intro left hleft =>
        rw [hleft.2.2, ← List.length_pos_iff, List.length_take, hlength]
        omega

theorem topP_eq_of_perm (hperm : other.Perm all) (hpos : 0 < share) (hlt : share < 1)
    : topP other share = topP all share := by
  unfold topP
  rw [if_pos ⟨hpos, hlt⟩, if_pos ⟨hpos, hlt⟩, ranked_eq_of_perm hperm]

theorem topP_nil (share : Float32) : topP [] share = [] := by
  unfold topP ranked
  simp

/-! ## Both cuts -/

/--
What the cuts leave of a list is described by its ranking, and so is the same for every order of the
list. The ranking is that of the scores, with NaN at the end that its sign tells, and the smaller
identifier first where the bits are the same.
-/
structure CutsCanonically (all : List Candidate) : Prop where
  ranking : (ranked all).Perm all ∧ (ranked all).Pairwise RanksAhead
  larger : ∀ a ∈ all, ∀ b ∈ all, b.score < a.score → a.RanksAhead b
  first : ∀ a ∈ all, ∀ b ∈ all, a.IsPositiveNaN → ¬b.IsPositiveNaN → a.RanksAhead b
  last : ∀ a ∈ all, ∀ b ∈ all, ¬a.IsNegativeNaN → b.IsNegativeNaN → a.RanksAhead b
  tied : ∀ a ∈ all, ∀ b ∈ all, a.bits = b.bits → a.id < b.id → a.RanksAhead b
  best : ∀ count, 0 < count → count < all.length → HoldsBest (topK all count) all count
  mass : ∀ share : Float32, 0 < share → share < 1 → HoldsMass (topP all share) all share
  best_perm : ∀ other : List Candidate, other.Perm all →
    ∀ count, 0 < count → count < all.length → topK other count = topK all count
  mass_perm : ∀ other : List Candidate, other.Perm all →
    ∀ share : Float32, 0 < share → share < 1 → topP other share = topP all share
  best_selected : ∀ arranged : List Candidate, arranged.Perm all →
    ∀ count, 0 < count → count < all.length →
      (∀ a ∈ arranged.take count, ∀ b ∈ arranged.drop count, a.ranksBefore b = true) →
      ranked (arranged.take count) = topK all count

theorem cutsCanonically_of_nodup (hids : (all.map (·.id)).Nodup) : CutsCanonically all := by
  constructor
  . exact ⟨perm_ranked all, pairwise_ranksAhead_ranked hids⟩
  . exact fun a _ b _ h => ranksAhead_of_score_lt h
  . exact fun a _ b _ ha hb => ranksAhead_of_isPositiveNaN ha hb
  . exact fun a _ b _ ha hb => ranksAhead_of_isNegativeNaN ha hb
  . exact fun a _ b _ hbits hid => ranksAhead_of_id_lt hbits hid
  . intro count hpos hlt
    exact holdsBest_topK hids hpos hlt
  . intro share hpos hlt
    exact holdsMass_topP hpos hlt
  . intro other hperm count hpos hlt
    rw [topK_eq_take hpos hlt, topK_eq_take hpos (hperm.length_eq ▸ hlt),
      ranked_eq_of_perm hperm]
  . intro other hperm share hpos hlt
    exact topP_eq_of_perm hperm hpos hlt
  . intro arranged hperm count hpos hlt hselected
    rw [topK_eq_take hpos hlt]
    exact ranked_take_of_selected hperm (Nat.le_of_lt hlt) hselected

theorem cutsCanonically_of_degenerate_scores
    : let all : List Candidate := [⟨4, 0x7fc00000⟩, ⟨-2, 0x80000000⟩, ⟨7, 0xff800000⟩, ⟨0, 0⟩,
        ⟨1, 0xffc00000⟩, ⟨3, 0xffc00001⟩, ⟨9, 0x7f800000⟩]
      (all.map (·.id)).Nodup ∧ CutsCanonically all :=
  ⟨by decide, cutsCanonically_of_nodup (by decide)⟩

theorem not_forall_topP_ne_nil
    : ¬∀ (all : List Candidate) (share : Float32), (all.map (·.id)).Nodup → 0 < share → share < 1 →
        topP all share ≠ [] := by
  intro h
  exact h [] 0.5 (by decide) (by decide) (by decide) (topP_nil 0.5)

end Candidate

end TextGen

import TextGen.Proofs.Text.Streaming

/-!
This module contains what an incremental decoder shows of any sequence of tokens if decoded text
goes on where it ended before: nothing is lost and nothing is shown twice, but every line is decoded
by itself.
-/

namespace TextGen

open Text

namespace IncrementalText

variable {codec : Codec} {text : List TokenId → String} {t : IncrementalText}
variable {part ids : List TokenId} {out : String}

/-! ## Division into lines -/

structure IsLine (text : List TokenId → String) (run : List TokenId) : Prop where
  ne_nil : run ≠ []
  endsLine : EndsLine (text run)
  shortest : ∀ part, part <+: run → part ≠ [] → EndsLine (text part) → part = run

structure IsDivision (text : List TokenId → String) (ids : List TokenId)
    (runs : List (List TokenId)) (rest : List TokenId) : Prop where
  append_eq : runs.flatten ++ rest = ids
  isLine : ∀ run ∈ runs, IsLine text run
  rest_open : ∀ part, part <+: rest → part ≠ [] → ¬EndsLine (text part)

def divide (text : List TokenId → String) (part : List TokenId) :
    List TokenId → List (List TokenId) × List TokenId
  | [] => ([], part)
  | id :: ids =>
    if EndsLine (text (part ++ [id])) then
      let (runs, rest) := divide text [] ids
      ((part ++ [id]) :: runs, rest)
    else divide text (part ++ [id]) ids

theorem isDivision_divide (text : List TokenId → String) (part : List TokenId)
    (hopen : ∀ earlier, earlier <+: part → earlier ≠ [] → ¬EndsLine (text earlier))
    (ids : List TokenId)
    : IsDivision text (part ++ ids) (divide text part ids).1 (divide text part ids).2 := by
  induction ids generalizing part with
  | nil => exact ⟨by simp [divide], by simp [divide], hopen⟩
  | cons id ids ih =>
    unfold divide
    by_cases hline : EndsLine (text (part ++ [id]))
    . rw [if_pos hline]
      have hrest := ih [] (by simp)
      refine ⟨?_, ?_, hrest.rest_open⟩
      . simpa using hrest.append_eq
      . intro run hrun
        rcases List.mem_cons.mp hrun with rfl | hrun
        . refine ⟨by simp, hline, ?_⟩
          intro earlier hearlier hne hends
          rcases List.prefix_concat_iff.mp hearlier with heq | hearlier
          . exact heq
          . exact absurd hends (hopen earlier hearlier hne)
        . exact hrest.isLine run hrun
    . rw [if_neg hline]
      have hrest := ih (part ++ [id]) (by
        intro earlier hearlier hne
        rcases List.prefix_concat_iff.mp hearlier with rfl | hearlier
        . exact hline
        . exact hopen earlier hearlier hne)
      simpa using hrest

theorem IsLine.eq_of_prefix {run run' : List TokenId} (h : IsLine text run) (h' : IsLine text run')
    (hrun : run <+: ids) (hrun' : run' <+: ids) : run = run' := by
  rcases List.prefix_or_prefix_of_prefix hrun hrun' with hprefix | hprefix
  . exact h'.shortest run hprefix h.ne_nil h.endsLine
  . exact (h.shortest run' hprefix h'.ne_nil h'.endsLine).symm

theorem IsDivision.unique {runs runs' : List (List TokenId)} {rest rest' : List TokenId}
    (h : IsDivision text ids runs rest) (h' : IsDivision text ids runs' rest')
    : runs' = runs ∧ rest' = rest := by
  induction runs generalizing ids runs' with
  | nil =>
    cases runs' with
    | nil => exact ⟨rfl, h'.append_eq.trans h.append_eq.symm⟩
    | cons run' runs' =>
      have hline := h'.isLine run' List.mem_cons_self
      have hprefix : run' <+: rest := by
        rw [show rest = ids from h.append_eq, ← h'.append_eq]
        simp
      exact absurd hline.endsLine (h.rest_open run' hprefix hline.ne_nil)
  | cons run runs ih =>
    have hline := h.isLine run List.mem_cons_self
    have hprefix : run <+: ids := by
      rw [← h.append_eq]
      simp
    cases runs' with
    | nil =>
      rw [show ids = rest' from h'.append_eq.symm] at hprefix
      exact absurd hline.endsLine (h'.rest_open run hprefix hline.ne_nil)
    | cons run' runs' =>
      have hprefix' : run' <+: ids := by
        rw [← h'.append_eq]
        simp
      have hrun := hline.eq_of_prefix (h'.isLine run' List.mem_cons_self) hprefix hprefix'
      subst hrun
      -- What is left after equal first runs is divided in the same way.
      have hids : runs.flatten ++ rest = runs'.flatten ++ rest' := by
        have := h.append_eq.trans h'.append_eq.symm
        simpa using this
      have hrest : IsDivision text (runs.flatten ++ rest) runs rest :=
        ⟨rfl, fun other hother => h.isLine other (List.mem_cons_of_mem _ hother), h.rest_open⟩
      have hrest' : IsDivision text (runs.flatten ++ rest) runs' rest' :=
        ⟨hids.symm, fun other hother => h'.isLine other (List.mem_cons_of_mem _ hother),
          h'.rest_open⟩
      rcases ih hrest hrest' with ⟨hruns, heq⟩
      exact ⟨by rw [hruns], heq⟩

/-! ## Text that only grows -/

theorem Holds.prefix_append (h : t.Holds text part out)
    (hextends : ∀ part more, IsWhole (text part) →
      (text part).toList <+: (text (part ++ more)).toList)
    (more : List TokenId) : out.toList <+: (text (part ++ more)).toList := by
  rcases h.out_cases with rfl | ⟨earlier, ⟨between, rfl⟩, hwhole, rfl⟩
  . exact List.nil_prefix
  . rw [List.append_assoc]
    exact hextends earlier (between ++ more) hwhole

theorem putAll_eq_divide (hdecode : ∀ ids, codec.decode ids = .ok (text ids))
    (hextends : ∀ part more, IsWhole (text part) →
      (text part).toList <+: (text (part ++ more)).toList)
    (h : t.Holds text part out) (ids : List TokenId)
    : ∃ shown t' out', t.putAll codec ids = (.ok shown, t')
        ∧ t'.Holds text (divide text part ids).2 out'
        ∧ out ++ shown = String.join ((divide text part ids).1.map text) ++ out' := by
  induction ids generalizing t part out with
  | nil => exact ⟨"", t, out, rfl, h, by simp [divide]⟩
  | cons id ids ih =>
    have hout := h.prefix_append hextends [id]
    unfold divide
    by_cases hline : EndsLine (text (part ++ [id]))
    . rcases put_of_endsLine h (hdecode _) hline hout with ⟨chunk, hput, hchunk⟩
      rcases ih (holds_empty text) with ⟨shown, t', out', hall, hheld, hshown⟩
      rw [if_pos hline]
      refine ⟨_, t', out', putAll_cons hput hall, hheld, ?_⟩
      calc out ++ (chunk ++ shown) = text (part ++ [id]) ++ ("" ++ shown) := by
            rw [← hchunk, String.empty_append, String.append_assoc]
        _ = text (part ++ [id])
              ++ (String.join ((divide text [] ids).1.map text) ++ out') := by rw [hshown]
        _ = _ := by simp [← String.toList_inj]
    . rw [if_neg hline]
      by_cases hwhole : IsWhole (text (part ++ [id]))
      . rcases put_of_isWhole h (hdecode _) hline hwhole hout with ⟨chunk, t₁, hput, hchunk, hheld₁⟩
        rcases ih hheld₁ with ⟨shown, t', out', hall, hheld, hshown⟩
        refine ⟨_, t', out', putAll_cons hput hall, hheld, ?_⟩
        rw [← hshown, ← hchunk, String.append_assoc]
      . rcases put_of_not_isWhole h (hdecode _) hwhole with ⟨t₁, hput, hheld₁⟩
        rcases ih hheld₁ with ⟨shown, t', out', hall, hheld, hshown⟩
        refine ⟨_, t', out', putAll_cons hput hall, hheld, ?_⟩
        rw [← hshown]
        simp

theorem stream_eq_divide (hdecode : ∀ ids, codec.decode ids = .ok (text ids))
    (hextends : ∀ part more, IsWhole (text part) →
      (text part).toList <+: (text (part ++ more)).toList)
    (ids : List TokenId)
    : stream codec ids
        =
      (.ok (String.join ((divide text [] ids).1.map text) ++ text (divide text [] ids).2 ++ "\n"),
        empty) := by
  rcases putAll_eq_divide hdecode hextends (holds_empty text) ids with
    ⟨shown, t, out, hall, hheld, hshown⟩
  have hout := hheld.prefix_append hextends []
  rw [List.append_nil] at hout
  rcases finish_of_holds hheld (hdecode _) hout with ⟨tail, hfinish, htail⟩
  rw [String.empty_append] at hshown
  rw [stream_of_putAll hall hfinish, hshown, String.append_assoc, htail, String.append_assoc]

theorem Holds.isValid (h : t.Holds text part out) (hout : out.toList <+: (text part).toList)
    : t.printed ≤ (text t.pending).utf8ByteSize
        ∧ String.Pos.Raw.IsValid (text t.pending) ⟨t.printed⟩ := by
  rcases exists_eq_append hout with ⟨rest, hrest⟩
  rw [h.pending_eq, h.printed_eq, hrest]
  constructor
  . rw [String.utf8ByteSize_append]
    omega
  . exact String.Pos.Raw.isValid_iff_exists_append.mpr ⟨out, rest, rfl, rfl⟩

theorem join_of_isDivision {runs : List (List TokenId)} {rest : List TokenId}
    (hjoins : ∀ part more, EndsLine (text part) → text (part ++ more) = text part ++ text more)
    (h : IsDivision text ids runs rest)
    : String.join (runs.map text) ++ text rest = text ids := by
  have hlines := h.isLine
  rw [← h.append_eq]
  clear h
  induction runs with
  | nil => simp
  | cons run runs ih =>
    have hrest := ih fun other hother => hlines other (List.mem_cons_of_mem _ hother)
    rw [List.flatten_cons, List.append_assoc,
      hjoins run _ (hlines run List.mem_cons_self).endsLine, ← hrest]
    simp [← String.toList_inj]

/--
A codec may take back the end of a text only where it is U+FFFD. Then every line is shown as it is
decoded by itself, and the tokens after the last line end too. What has been shown always is a part
of the text of the pending tokens. If decoding can be cut at line ends, all text is that of all
tokens.
-/
theorem stream_eq_lines (hdecode : ∀ ids, codec.decode ids = .ok (text ids))
    (hextends : ∀ part more, IsWhole (text part) →
      (text part).toList <+: (text (part ++ more)).toList)
    (ids : List TokenId)
    : (∃ runs rest, IsDivision text ids runs rest
        ∧ (∀ runs' rest', IsDivision text ids runs' rest' → runs' = runs ∧ rest' = rest)
        ∧ stream codec ids = (.ok (String.join (runs.map text) ++ text rest ++ "\n"), empty))
      ∧ (let t := (empty.putAll codec ids).2
        t.printed ≤ (text t.pending).utf8ByteSize
          ∧ String.Pos.Raw.IsValid (text t.pending) ⟨t.printed⟩)
      ∧ ((∀ part more, EndsLine (text part) → text (part ++ more) = text part ++ text more) →
        stream codec ids = (.ok (text ids ++ "\n"), empty)) := by
  have hstream := stream_eq_divide hdecode hextends ids
  have hdivision := isDivision_divide text [] (by simp) ids
  rw [List.nil_append] at hdivision
  refine ⟨⟨_, _, hdivision, fun _ _ h' => hdivision.unique h', hstream⟩, ?_, ?_⟩
  . rcases putAll_eq_divide hdecode hextends (holds_empty text) ids with
      ⟨shown, t, out, hall, hheld, _⟩
    have hout := hheld.prefix_append hextends []
    rw [List.append_nil] at hout
    rw [hall]
    exact hheld.isValid hout
  . intro hjoins
    rw [hstream, join_of_isDivision hjoins hdivision]

theorem stream_split_character
    : let table := PieceTable.ofPieces [(1, [72, 105]), (6, [10]), (7, [195]), (8, [169])]
      stream table.codec [1, 7, 8, 6, 7, 1, 7] = (.ok "Hié\n\uFFFDHi\uFFFD\n", empty) := by
  intro table
  have hdecode := PieceTable.decode_ofPieces [(1, [72, 105]), (6, [10]), (7, [195]), (8, [169])]
  have hextends : ∀ part more : List TokenId, IsWhole (Utf8.decodeLossy (table.bytes part)) →
      (Utf8.decodeLossy (table.bytes part)).toList
        <+: (Utf8.decodeLossy (table.bytes (part ++ more))).toList := by
    intro part more hwhole
    rw [PieceTable.bytes_append, Utf8.decodeLossy_append hwhole]
    simp
  have htext : Utf8.decodeLossy (table.bytes [1, 7, 8, 6, 7, 1, 7]) = "Hié\n\uFFFDHi\uFFFD" := by
    decide
  have hstream := (stream_eq_lines hdecode hextends [1, 7, 8, 6, 7, 1, 7]).2.2
  rw [hstream, htext]
  . rfl
  . intro part more hline
    rw [PieceTable.bytes_append, Utf8.decodeLossy_append hline.isWhole]

end IncrementalText

end TextGen

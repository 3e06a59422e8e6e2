import TextGen.Proofs.Text.Incremental
import TextGen.Proofs.Text.Utf8

/-!
This module contains what an incremental decoder shows of the tokens of one line. Text that has been
shown cannot be taken back, so all of it is right exactly if no text that a codec gives for the
first tokens is changed by the tokens after them.
-/

namespace TextGen

theorem utf8ByteSize_ofList_cons (c : Char) (cs : List Char)
    : (String.ofList (c :: cs)).utf8ByteSize = c.utf8Size + (String.ofList cs).utf8ByteSize := by
  have hcons : String.ofList (c :: cs) = String.singleton c ++ String.ofList cs := by
    rw [String.singleton_eq_ofList, ← String.ofList_append]
    rfl
  rw [hcons, String.utf8ByteSize_append, String.utf8ByteSize_singleton]

theorem dropBytes?_append (before after : List Char)
    : dropBytes? (String.ofList before).utf8ByteSize (before ++ after) = some after := by
  induction before with
  | nil => cases after <;> rfl
  | cons c before ih =>
    have hsize := c.utf8Size_pos
    rw [utf8ByteSize_ofList_cons]
    obtain ⟨size, hsize⟩ : ∃ size, c.utf8Size = size + 1 := ⟨c.utf8Size - 1, by omega⟩
    rw [hsize, show size + 1 + (String.ofList before).utf8ByteSize
      = (size + (String.ofList before).utf8ByteSize) + 1 by omega, List.cons_append, dropBytes?,
      if_pos (by omega)]
    rw [show size + (String.ofList before).utf8ByteSize + 1 - c.utf8Size
      = (String.ofList before).utf8ByteSize by omega]
    exact ih

@[simp]
theorem textFrom_append (s t : String) : textFrom (s ++ t) s.utf8ByteSize = t := by
  have hdrop := dropBytes?_append s.toList t.toList
  rw [String.ofList_toList] at hdrop
  simp [textFrom, hdrop]

theorem exists_eq_append {s t : String} (h : s.toList <+: t.toList) : ∃ rest, t = s ++ rest := by
  rcases h with ⟨rest, hrest⟩
  refine ⟨String.ofList rest, ?_⟩
  rw [← String.toList_inj]
  simp [hrest]

open Text

namespace IncrementalText

def putAll (t : IncrementalText) (codec : Codec) :
    List TokenId → Except CodecError String × IncrementalText
  | [] => (.ok "", t)
  | id :: ids =>
    match t.put codec id with
    | (.error e, t) => (.error e, t)
    | (.ok chunk, t) =>
      match t.putAll codec ids with
      | (.error e, t) => (.error e, t)
      | (.ok text, t) => (.ok (chunk.getD "" ++ text), t)

def stream (codec : Codec) (ids : List TokenId) : Except CodecError String × IncrementalText :=
  match empty.putAll codec ids with
  | (.error e, t) => (.error e, t)
  | (.ok text, t) =>
    match t.finish codec with
    | (.error e, t) => (.error e, t)
    | (.ok tail, t) => (.ok (text ++ tail), t)

variable {codec : Codec} {text : List TokenId → String} {t t' t₁ : IncrementalText}
variable {part ids : List TokenId} {id : TokenId} {out shown : String} {chunk : Option String}

theorem putAll_cons (hput : t.put codec id = (.ok chunk, t₁))
    (hall : t₁.putAll codec ids = (.ok shown, t'))
    : t.putAll codec (id :: ids) = (.ok (chunk.getD "" ++ shown), t') := by
  unfold putAll
  rw [hput]
  dsimp only
  rw [hall]

theorem exists_of_putAll_cons {all : String} (h : t.putAll codec (id :: ids) = (.ok all, t'))
    : ∃ chunk t₁ shown, t.put codec id = (.ok chunk, t₁)
        ∧ t₁.putAll codec ids = (.ok shown, t')
        ∧ all = chunk.getD "" ++ shown := by
  unfold putAll at h
  rcases hput : t.put codec id with ⟨result, t₁⟩
  rw [hput] at h
  cases result with
  | error e => simp at h
  | ok chunk =>
    dsimp only at h
    rcases hall : t₁.putAll codec ids with ⟨result, t₂⟩
    rw [hall] at h
    cases result with
    | error e => simp at h
    | ok shown =>
      cases h
      exact ⟨chunk, t₁, shown, rfl, hall, rfl⟩

theorem putAll_concat (hall : t.putAll codec ids = (.ok shown, t₁))
    (hput : t₁.put codec id = (.ok chunk, t'))
    : t.putAll codec (ids ++ [id]) = (.ok (shown ++ chunk.getD ""), t') := by
  induction ids generalizing t shown with
  | nil =>
    cases hall
    rw [List.nil_append, putAll_cons hput rfl, String.append_empty, String.empty_append]
  | cons first ids ih =>
    rcases exists_of_putAll_cons hall with ⟨chunk', t₂, rest, hfirst, hrest, rfl⟩
    rw [List.cons_append, putAll_cons hfirst (ih hrest), String.append_assoc]

theorem stream_of_putAll {tail : String} (hall : empty.putAll codec ids = (.ok shown, t))
    (hfinish : t.finish codec = (.ok tail, t')) : stream codec ids = (.ok (shown ++ tail), t') := by
  unfold stream
  rw [hall]
  dsimp only
  rw [hfinish]

theorem exists_of_stream {all : String} (h : stream codec ids = (.ok all, t'))
    : ∃ shown t tail, empty.putAll codec ids = (.ok shown, t)
        ∧ t.finish codec = (.ok tail, t')
        ∧ all = shown ++ tail := by
  unfold stream at h
  rcases hall : empty.putAll codec ids with ⟨result, t⟩
  rw [hall] at h
  cases result with
  | error e => simp at h
  | ok shown =>
    dsimp only at h
    rcases hfinish : t.finish codec with ⟨result, t₂⟩
    rw [hfinish] at h
    cases result with
    | error e => simp at h
    | ok tail =>
      cases h
      exact ⟨shown, t, tail, rfl, hfinish, rfl⟩

/-! ## What is pending -/

/--
The tokens `part` are pending, and `out` is what has been shown of their text: nothing, or the text
of the tokens up to one of them.
-/
structure Holds (t : IncrementalText) (text : List TokenId → String) (part : List TokenId)
    (out : String) : Prop where
  pending_eq : t.pending = part
  printed_eq : t.printed = out.utf8ByteSize
  out_cases : out = "" ∨ ∃ earlier, earlier <+: part ∧ IsWhole (text earlier) ∧ out = text earlier

theorem holds_empty (text : List TokenId → String) : empty.Holds text [] "" :=
  ⟨rfl, rfl, .inl rfl⟩

theorem put_of_endsLine (h : t.Holds text part out)
    (hdecode : codec.decode (part ++ [id]) = .ok (text (part ++ [id])))
    (hline : EndsLine (text (part ++ [id])))
    (hout : out.toList <+: (text (part ++ [id])).toList)
    : ∃ chunk, t.put codec id = (.ok (some chunk), empty)
        ∧ out ++ chunk = text (part ++ [id]) := by
  rcases exists_eq_append hout with ⟨chunk, hchunk⟩
  unfold put
  dsimp only
  rw [h.pending_eq, hdecode]
  dsimp only
  rw [hline]
  rw [h.printed_eq, hchunk, textFrom_append]
  exact ⟨chunk, rfl, rfl⟩

theorem put_of_not_isWhole (h : t.Holds text part out)
    (hdecode : codec.decode (part ++ [id]) = .ok (text (part ++ [id])))
    (hwhole : ¬IsWhole (text (part ++ [id])))
    : ∃ t', t.put codec id = (.ok none, t') ∧ t'.Holds text (part ++ [id]) out := by
  have hlast : (text (part ++ [id])).toList.getLast? = some Utf8.replacement := by
    simpa [IsWhole] using hwhole
  unfold put
  dsimp only
  rw [h.pending_eq, hdecode]
  dsimp only
  rw [hlast]
  refine ⟨_, rfl, rfl, h.printed_eq, ?_⟩
  rcases h.out_cases with hempty | ⟨earlier, hearlier, hcases⟩
  . exact .inl hempty
  . exact .inr ⟨earlier, hearlier.trans (List.prefix_append _ _), hcases⟩

theorem put_of_isWhole (h : t.Holds text part out)
    (hdecode : codec.decode (part ++ [id]) = .ok (text (part ++ [id])))
    (hline : ¬EndsLine (text (part ++ [id]))) (hwhole : IsWhole (text (part ++ [id])))
    (hout : out.toList <+: (text (part ++ [id])).toList)
    : ∃ chunk t', t.put codec id = (.ok chunk, t')
        ∧ out ++ chunk.getD "" = text (part ++ [id])
        ∧ t'.Holds text (part ++ [id]) (text (part ++ [id])) := by
  rcases exists_eq_append hout with ⟨chunk, hchunk⟩
  have hfrom : textFrom (text (part ++ [id])) t.printed = chunk := by
    rw [h.printed_eq, hchunk, textFrom_append]
  unfold put
  dsimp only
  rw [h.pending_eq, hdecode]
  dsimp only
  split
  . contradiction
  . rw [if_neg hwhole, hfrom]
    refine ⟨_, _, rfl, ?_, rfl, rfl, .inr ⟨_, List.prefix_rfl, hwhole, rfl⟩⟩
    by_cases hempty : chunk = ""
    . simp [hempty, hchunk]
    . simp [hempty, hchunk]

theorem finish_of_holds (h : t.Holds text part out) (hdecode : codec.decode part = .ok (text part))
    (hout : out.toList <+: (text part).toList)
    : ∃ tail, t.finish codec = (.ok tail, empty) ∧ out ++ tail = text part ++ "\n" := by
  rcases exists_eq_append hout with ⟨rest, hrest⟩
  unfold finish
  rw [h.pending_eq, hdecode]
  dsimp only
  rw [h.printed_eq, hrest, textFrom_append]
  exact ⟨_, rfl, String.append_assoc.symm⟩

/-! ## Text that may be taken back -/

theorem prefix_putAll {shown all : String} {t' t'' : IncrementalText} {more : List TokenId}
    (h : t.putAll codec ids = (.ok shown, t'))
    (hall : t.putAll codec (ids ++ more) = (.ok all, t'')) : shown.toList <+: all.toList := by
  induction ids generalizing t shown all with
  | nil =>
    cases h
    exact List.nil_prefix
  | cons id ids ih =>
    rcases exists_of_putAll_cons h with ⟨chunk, t₁, rest, hput, hrest, rfl⟩
    rcases exists_of_putAll_cons hall with ⟨chunk', t₁', rest', hput', hrest', rfl⟩
    cases hput.symm.trans hput'
    rw [String.toList_append, String.toList_append, List.prefix_append_right_inj]
    exact ih hrest hrest'

structure IsLineOf (codec : Codec) (text : List TokenId → String) (ids : List TokenId) : Prop where
  decode_eq : ∀ part, part <+: ids → codec.decode part = .ok (text part)
  single : ∀ part, part <+: ids → '\n' ∉ (text part).toList

theorem IsLineOf.of_prefix (h : IsLineOf codec text ids) (hpart : part <+: ids)
    : IsLineOf codec text part :=
  ⟨fun earlier hearlier => h.decode_eq earlier (hearlier.trans hpart),
    fun earlier hearlier => h.single earlier (hearlier.trans hpart)⟩

theorem IsLineOf.not_endsLine (h : IsLineOf codec text ids) (hpart : part <+: ids)
    : ¬EndsLine (text part) :=
  fun hends => h.single part hpart (List.mem_of_getLast? hends)

def Grows (text : List TokenId → String) (ids : List TokenId) : Prop :=
  ∀ earlier later, earlier <+: later → later <+: ids → IsWhole (text earlier) →
    IsWhole (text later) → (text earlier).toList <+: (text later).toList

theorem putAll_of_grows (h : t.Holds text part out) (hnow : IsWhole (text part) → out = text part)
    (hline : IsLineOf codec text (part ++ ids))
    (hgrows : Grows text (part ++ ids))
    : ∃ shown t', t.putAll codec ids = (.ok shown, t')
        ∧ t'.Holds text (part ++ ids) (out ++ shown)
        ∧ (IsWhole (text (part ++ ids)) → out ++ shown = text (part ++ ids)) := by
  induction ids generalizing t part out with
  | nil => exact ⟨"", t, rfl, by simpa using h, by simpa using hnow⟩
  | cons id ids ih =>
    have hprefix : part ++ [id] <+: part ++ id :: ids := ⟨ids, by simp⟩
    have hsplit : part ++ id :: ids = (part ++ [id]) ++ ids := by simp
    have hdecode := hline.decode_eq _ hprefix
    rw [hsplit] at hline hgrows ⊢
    by_cases hwhole : IsWhole (text (part ++ [id]))
    . have hout : out.toList <+: (text (part ++ [id])).toList := by
        rcases h.out_cases with rfl | ⟨earlier, hearlier, hearlierWhole, rfl⟩
        . exact List.nil_prefix
        . exact hgrows earlier (part ++ [id]) (hearlier.trans (List.prefix_append _ _))
            (List.prefix_append _ _) hearlierWhole hwhole
      rcases put_of_isWhole h hdecode (hline.not_endsLine (List.prefix_append _ _)) hwhole hout with
        ⟨chunk, t₁, hput, hchunk, hheld₁⟩
      rcases ih hheld₁ (fun _ => rfl) hline hgrows with ⟨shown, t', hall, hheld, hshown⟩
      rw [← hchunk, String.append_assoc] at hheld hshown
      exact ⟨_, t', putAll_cons hput hall, hheld, hshown⟩
    . rcases put_of_not_isWhole h hdecode hwhole with ⟨t₁, hput, hheld₁⟩
      rcases ih hheld₁ (fun hcontra => absurd hcontra hwhole) hline hgrows with
        ⟨shown, t', hall, hheld, hshown⟩
      exact ⟨_, t', putAll_cons hput hall, by simpa using hheld, by simpa using hshown⟩

theorem prefix_of_grows (hnil : text [] = "") (hline : IsLineOf codec text ids)
    (hpart : part <+: ids) (hgrows : Grows text part) (hwhole : IsWhole (text part))
    (hstream : stream codec ids = (.ok (text ids ++ "\n"), empty))
    : (text part).toList <+: (text ids).toList := by
  -- The text of the part has been shown, and nothing that has been shown is taken back.
  rcases putAll_of_grows (holds_empty text) (fun _ => hnil.symm) (hline.of_prefix hpart)
    hgrows with ⟨shown, t, hall, _, hshown⟩
  rw [List.nil_append, String.empty_append] at hshown
  rcases exists_of_stream hstream with ⟨all, t', tail, hputAll, _, htext⟩
  have hprefix : (text part).toList <+: (text ids).toList ++ ['\n'] := by
    have hsplit : (text ids).toList ++ ['\n'] = all.toList ++ tail.toList := by
      simpa using congrArg String.toList htext
    rcases hpart with ⟨more, rfl⟩
    rw [← hshown hwhole, hsplit]
    exact (prefix_putAll hall hputAll).trans (List.prefix_append _ _)
  rcases List.prefix_concat_iff.mp hprefix with heq | hprefix
  . have hmem : '\n' ∈ (text part).toList := by
      rw [heq]
      simp
    exact absurd hmem (hline.single part hpart)
  . exact hprefix

theorem lasts_of_stream (hnil : text [] = "") (hline : IsLineOf codec text ids)
    (hlasts : ∀ part later, part <+: later → later <+: ids →
      IsWhole (text part) → IsWhole (text later) →
        (text part).toList <+: (text ids).toList → (text part).toList <+: (text later).toList)
    (hstream : stream codec ids = (.ok (text ids ++ "\n"), empty)) (part : List TokenId)
    (hpart : part <+: ids) (hwhole : IsWhole (text part))
    : (text part).toList <+: (text ids).toList := by
  -- by induction on the length of the part; a text is known to be shown only if no text before it
  -- has been taken back
  induction hlength : part.length using Nat.strongRecOn generalizing part with
  | ind n ih =>
    apply prefix_of_grows hnil hline hpart _ hwhole hstream
    intro earlier later hearlier hlater hearlierWhole hlaterWhole
    rcases Nat.lt_or_ge earlier.length n with hlt | hge
    . have hlast := ih earlier.length hlt earlier ((hearlier.trans hlater).trans hpart)
        hearlierWhole rfl
      exact hlasts earlier later hearlier (hlater.trans hpart) hearlierWhole hlaterWhole hlast
    . have hlength' := hlater.length_le
      have heq := hearlier.eq_of_length_le (by omega)
      subst heq
      exact List.prefix_rfl

theorem stream_of_lasts (hnil : text [] = "") (hline : IsLineOf codec text ids)
    (hgrows : Grows text ids)
    (hall : ∀ part, part <+: ids → IsWhole (text part) →
      (text part).toList <+: (text ids).toList)
    : stream codec ids = (.ok (text ids ++ "\n"), empty) := by
  rcases putAll_of_grows (holds_empty text) (fun _ => hnil.symm) hline hgrows with
    ⟨shown, t, hshows, hheld, _⟩
  rw [List.nil_append, String.empty_append] at hheld
  have hout : shown.toList <+: (text ids).toList := by
    rcases hheld.out_cases with rfl | ⟨earlier, hearlier, hwhole, rfl⟩
    . exact List.nil_prefix
    . exact hall earlier hearlier hwhole
  rcases finish_of_holds hheld (hline.decode_eq ids List.prefix_rfl) hout with
    ⟨tail, hfinish, htail⟩
  rw [stream_of_putAll hshows hfinish, htail]

/--
If whole texts that last to the end also last up to each other, then the text that is shown is that
of all tokens exactly if every whole text lasts to the end.
-/
theorem stream_eq_text_iff (hnil : text [] = "") (hline : IsLineOf codec text ids)
    (hlasts : ∀ part later, part <+: later → later <+: ids →
      IsWhole (text part) → IsWhole (text later) →
        (text part).toList <+: (text ids).toList → (text part).toList <+: (text later).toList)
    : stream codec ids = (.ok (text ids ++ "\n"), empty)
        ↔
      ∀ part, part <+: ids → IsWhole (text part) → (text part).toList <+: (text ids).toList := by
  constructor
  . exact lasts_of_stream hnil hline hlasts
  . intro hall
    apply stream_of_lasts hnil hline _ hall
    intro earlier later hearlier hlater hearlierWhole hlaterWhole
    exact hlasts earlier later hearlier hlater hearlierWhole hlaterWhole
      (hall earlier (hearlier.trans hlater) hearlierWhole)

end IncrementalText

end TextGen

import TextGen.Codec.WordLevel
import TextGen.Proofs.Text.Streaming

/-!
This module contains when the text of a word-level tokenizer can be streamed. Joined with spaces it
always can. Where tokens name bytes, a run of bytes that turns out invalid takes back the text of
the characters that it began with, and then what is shown is not the text of all tokens.
-/

namespace TextGen

open Text

namespace WordLevel

variable {tokens tokens' before after run : List String} {bytes bytes' first : List UInt8}

/-! ## Runs of bytes -/

structure IsByteRun (tokens before : List String) (bytes : List UInt8) (after : List String)
    : Prop where
  split : ∃ run, tokens = before ++ run ++ after ∧ run.map byte? = bytes.map some
  before_closed : before.getLast?.bind byte? = none
  after_closed : after.head?.bind byte? = none

theorem exists_run (tokens : List String)
    : ∃ run after, ∃ bytes : List UInt8, tokens = run ++ after ∧ run.map byte? = bytes.map some
        ∧ after.head?.bind byte? = none := by
  induction tokens with
  | nil => exact ⟨[], [], [], rfl, rfl, rfl⟩
  | cons token tokens ih =>
    cases hbyte : byte? token with
    | none => exact ⟨[], token :: tokens, [], rfl, rfl, by simp [hbyte]⟩
    | some b =>
      rcases ih with ⟨run, after, bytes, rfl, hrun, hafter⟩
      exact ⟨token :: run, after, b :: bytes, rfl, by simp [hbyte, hrun], hafter⟩

theorem exists_isByteRun (tokens : List String)
    : ∃ before bytes, IsByteRun tokens before bytes [] := by
  rcases exists_run tokens.reverse with ⟨run, before, bytes, hsplit, hrun, hbefore⟩
  refine ⟨before.reverse, bytes.reverse, ⟨run.reverse, ?_, ?_⟩, ?_, rfl⟩
  . rw [List.append_nil, ← List.reverse_append, ← hsplit, List.reverse_reverse]
  . rw [List.map_reverse, hrun, List.map_reverse]
  . rw [List.getLast?_reverse, hbefore]

theorem IsByteRun.exists_append (h : IsByteRun tokens before bytes []) (more : List String)
    : ∃ bytes' after, IsByteRun (tokens ++ more) before (bytes ++ bytes') after := by
  rcases h.split with ⟨run, rfl, hrun⟩
  rcases exists_run more with ⟨run', after, bytes', rfl, hrun', hafter⟩
  exact ⟨bytes', after, ⟨run ++ run', by simp, by simp [hrun, hrun']⟩, h.before_closed, hafter⟩

theorem IsByteRun.append_of_ne_nil (h : IsByteRun tokens before bytes after) (hafter : after ≠ [])
    (more : List String) : IsByteRun (tokens ++ more) before bytes (after ++ more) := by
  rcases h.split with ⟨run, rfl, hrun⟩
  refine ⟨⟨run, by simp, hrun⟩, h.before_closed, ?_⟩
  rw [List.head?_append, Option.or_of_isSome (by simpa using hafter)]
  exact h.after_closed

theorem IsByteRun.exists_prefix (h : IsByteRun tokens before bytes after) (hfirst : first <+: bytes)
    : ∃ part, part <+: tokens ∧ IsByteRun part before first [] := by
  rcases h.split with ⟨run, rfl, hrun⟩
  rcases hfirst with ⟨rest, rfl⟩
  rw [List.map_append] at hrun
  rcases List.map_eq_append_iff.mp hrun with ⟨run₁, run₂, rfl, hrun₁, _⟩
  exact ⟨before ++ run₁, ⟨run₂ ++ after, by simp⟩, ⟨run₁, by simp, hrun₁⟩, h.before_closed, rfl⟩

/-! ## The text of tokens that name bytes -/

@[simp]
theorem bytesText_nil : bytesText [] = [] :=
  rfl

@[simp]
theorem joinBytes_nil : joinBytes [] = [] :=
  rfl

theorem go_append (hrun : run.map byte? = bytes.map some) (earlier : List UInt8)
    (after : List String)
    : joinBytes.go earlier (run ++ after) = joinBytes.go (bytes.reverse ++ earlier) after := by
  induction run generalizing bytes earlier with
  | nil =>
    cases bytes with
    | nil => rfl
    | cons b bytes => simp at hrun
  | cons token run ih =>
    cases bytes with
    | nil => simp at hrun
    | cons b bytes =>
      rw [List.map_cons, List.map_cons, List.cons.injEq] at hrun
      simp [joinBytes.go, hrun.1, ih hrun.2]

theorem go_of_closed (hafter : after.head?.bind byte? = none) (earlier : List UInt8)
    : joinBytes.go earlier after = bytesText earlier.reverse ++ joinBytes after := by
  cases after with
  | nil => simp [joinBytes, joinBytes.go]
  | cons token after =>
    have hbyte : byte? token = none := hafter
    simp [joinBytes, joinBytes.go, hbyte]

theorem go_append_cons {token : String} (htoken : byte? token = none) (earlier : List UInt8)
    (before more : List String)
    : joinBytes.go earlier (before ++ token :: more)
        =
      joinBytes.go earlier (before ++ [token]) ++ joinBytes more := by
  induction before generalizing earlier with
  | nil => simp [joinBytes, joinBytes.go, htoken]
  | cons first before ih =>
    rw [List.cons_append, List.cons_append]
    unfold joinBytes.go
    split
    . exact ih _
    . rw [ih]
      simp only [List.append_assoc]

theorem joinBytes_append (hbefore : before.getLast?.bind byte? = none) (more : List String)
    : joinBytes (before ++ more) = joinBytes before ++ joinBytes more := by
  rcases List.eq_nil_or_concat before with rfl | ⟨init, token, rfl⟩
  . simp [joinBytes, joinBytes.go]
  . have htoken : byte? token = none := by simpa using hbefore
    rw [List.concat_eq_append, List.append_assoc, List.singleton_append]
    exact go_append_cons htoken [] init more

theorem IsByteRun.joinBytes_eq (h : IsByteRun tokens before bytes after)
    : joinBytes tokens = joinBytes before ++ (bytesText bytes ++ joinBytes after) := by
  rcases h.split with ⟨run, rfl, hrun⟩
  rw [List.append_assoc, joinBytes_append h.before_closed]
  congr 1
  unfold joinBytes
  rw [go_append hrun, go_of_closed h.after_closed]
  simp [joinBytes]

theorem bytesText_of_eq_some {s : String} (h : Utf8.decode? bytes = some s)
    : bytesText bytes = s.toList := by
  unfold bytesText
  rw [h]

theorem bytesText_of_eq_none (h : Utf8.decode? bytes = none)
    : bytesText bytes = List.replicate bytes.length Utf8.replacement := by
  unfold bytesText
  rw [h]
  exact List.map_const' ..

/-! ## Text that is taken back -/

def KeepsText (bytes : List UInt8) : Prop :=
  ∀ first s, first <+: bytes → first ≠ [] → Utf8.decode? first = some s → IsWhole s →
    (Utf8.decode? bytes).isSome = true

theorem eq_some_of_isWhole (h : IsByteRun tokens before bytes []) (hbytes : bytes ≠ [])
    (hwhole : IsWhole (String.ofList (joinBytes tokens)))
    : ∃ s, Utf8.decode? bytes = some s ∧ IsWhole s := by
  rw [IsWhole, String.toList_ofList, h.joinBytes_eq, joinBytes_nil, List.append_nil] at hwhole
  cases hdecode : Utf8.decode? bytes with
  | none =>
    rw [bytesText_of_eq_none hdecode] at hwhole
    simp [List.getLast?_append, List.getLast?_replicate, hbytes] at hwhole
  | some s =>
    have hs := Utf8.ne_nil_of_decode? hdecode hbytes
    rw [bytesText_of_eq_some hdecode, List.getLast?_append,
      Option.or_of_isSome (by simpa using hs)] at hwhole
    exact ⟨s, rfl, hwhole⟩

theorem not_isPrefix_of_eq_none {s : String} (hbytes : bytes ≠ [])
    (hdecode : Utf8.decode? bytes = some s) (hwhole : IsWhole s)
    (hdecode' : Utf8.decode? (bytes ++ bytes') = none) (text : List Char)
    : ¬s.toList <+: bytesText (bytes ++ bytes') ++ text := by
  intro heq
  have hs := Utf8.ne_nil_of_decode? hdecode hbytes
  -- There is one U+FFFD for every byte, and the text is no longer than its bytes.
  have hlength := Utf8.length_le_of_decode? hdecode
  rw [bytesText_of_eq_none hdecode', List.prefix_iff_eq_take, List.take_append_of_le_length,
    List.take_replicate, Nat.min_eq_left] at heq
  . apply hwhole
    rw [heq, List.getLast?_replicate, if_neg (by simpa using hs)]
  . simp only [List.length_append]
    omega
  . simp only [List.length_replicate, List.length_append]
    omega

theorem joinBytes_isPrefix_iff (h : IsByteRun tokens before bytes [])
    (hwhole : IsWhole (String.ofList (joinBytes tokens)))
    (h' : IsByteRun tokens' before (bytes ++ bytes') after)
    : joinBytes tokens <+: joinBytes tokens'
        ↔
      bytes = [] ∨ (Utf8.decode? (bytes ++ bytes')).isSome = true := by
  rw [h.joinBytes_eq, h'.joinBytes_eq, List.prefix_append_right_inj, joinBytes_nil, List.append_nil]
  by_cases hbytes : bytes = []
  . simp [hbytes]
  . rcases eq_some_of_isWhole h hbytes hwhole with ⟨s, hdecode, hs⟩
    rw [bytesText_of_eq_some hdecode]
    cases hdecode' : Utf8.decode? (bytes ++ bytes') with
    | none => simp [hbytes, not_isPrefix_of_eq_none hbytes hdecode hs hdecode']
    | some s' =>
      rw [bytesText_of_eq_some hdecode']
      simp [(Utf8.prefix_of_decode? hdecode hdecode').trans (List.prefix_append _ _)]

theorem joinBytes_isPrefix_of_isPrefix {middle : List String} (hmiddle : tokens <+: middle)
    (htokens' : middle <+: tokens') (hwhole : IsWhole (String.ofList (joinBytes tokens)))
    (hwhole' : IsWhole (String.ofList (joinBytes middle)))
    (hlast : joinBytes tokens <+: joinBytes tokens') : joinBytes tokens <+: joinBytes middle := by
  rcases hmiddle with ⟨more, rfl⟩
  rcases htokens' with ⟨rest, rfl⟩
  rcases exists_isByteRun tokens with ⟨before, bytes, h⟩
  rcases h.exists_append more with ⟨bytes', after, h'⟩
  rw [joinBytes_isPrefix_iff h hwhole h']
  by_cases hbytes : bytes = []
  . exact .inl hbytes
  . by_cases hafter : after = []
    -- The run goes on up to the end of `middle`, where the text is whole.
    . subst hafter
      rcases eq_some_of_isWhole h' (by simp [hbytes]) hwhole' with ⟨s, hdecode, _⟩
      simp [hdecode]
    . have h'' := h'.append_of_ne_nil hafter rest
      exact (joinBytes_isPrefix_iff h hwhole h'').mp hlast

theorem forall_isPrefix_iff_keepsText
    : (∀ part, part <+: tokens → IsWhole (String.ofList (joinBytes part)) →
        joinBytes part <+: joinBytes tokens)
        ↔
      ∀ before bytes after, IsByteRun tokens before bytes after → KeepsText bytes := by
  constructor
  . intro hall before bytes after h first s hfirst hne hdecode hs
    rcases h.exists_prefix hfirst with ⟨part, hpart, h'⟩
    rcases hfirst with ⟨bytes', rfl⟩
    have hnonempty := Utf8.ne_nil_of_decode? hdecode hne
    have hwhole : IsWhole (String.ofList (joinBytes part)) := by
      rw [IsWhole, String.toList_ofList, h'.joinBytes_eq, bytesText_of_eq_some hdecode,
        joinBytes_nil, List.append_nil, List.getLast?_append,
        Option.or_of_isSome (by simpa using hnonempty)]
      exact hs
    exact ((joinBytes_isPrefix_iff h' hwhole h).mp (hall part hpart hwhole)).resolve_left hne
  . rintro hkeeps part ⟨rest, rfl⟩ hwhole
    rcases exists_isByteRun part with ⟨before, bytes, h⟩
    rcases h.exists_append rest with ⟨bytes', after, h'⟩
    rw [joinBytes_isPrefix_iff h hwhole h']
    by_cases hbytes : bytes = []
    . exact .inl hbytes
    . rcases eq_some_of_isWhole h hbytes hwhole with ⟨s, hdecode, hs⟩
      exact .inr (hkeeps before _ after h' bytes s (List.prefix_append _ _) hbytes hdecode hs)

/-! ## Text that is joined -/

theorem intercalate_isPrefix (separator : String) (h : tokens <+: tokens')
    : (separator.intercalate tokens).toList <+: (separator.intercalate tokens').toList := by
  rcases h with ⟨rest, rfl⟩
  rw [String.toList_intercalate, String.toList_intercalate]
  induction tokens with
  | nil => exact List.nil_prefix
  | cons token tokens ih =>
    cases tokens with
    | nil =>
      cases rest with
      | nil => exact List.prefix_rfl
      | cons next rest =>
        simp only [List.cons_append, List.nil_append, List.map_cons, List.map_nil,
          List.intercalate_singleton, List.intercalate_cons_cons, List.append_assoc]
        exact List.prefix_append _ _
    | cons next tokens =>
      simp only [List.cons_append, List.map_cons, List.intercalate_cons_cons,
        List.prefix_append_right_inj] at ih ⊢
      exact ih

theorem joined_isPrefix_of_spaces {w : WordLevel} (hjoin : w.join = .spaces)
    (h : tokens <+: tokens') : (w.joined tokens).toList <+: (w.joined tokens').toList := by
  simp only [joined, hjoin]
  exact intercalate_isPrefix " " h

theorem joined_of_bytes {w : WordLevel} (hjoin : w.join = .bytes) (tokens : List String)
    : w.joined tokens = String.ofList (joinBytes tokens) := by
  simp only [joined, hjoin]

theorem shown_isPrefix (w : WordLevel) {part ids : List TokenId} (h : part <+: ids)
    : w.shown (part.map Int.toNat) <+: w.shown (ids.map Int.toNat) :=
  ((h.map Int.toNat).filterMap w.token?).filter _

theorem exists_of_isPrefix_shown {w : WordLevel} {ids : List TokenId} {part : List String}
    (h : part <+: w.shown (ids.map Int.toNat))
    : ∃ earlier, earlier <+: ids ∧ part = w.shown (earlier.map Int.toNat) := by
  rcases List.prefix_filter_iff.mp h with ⟨found, hfound, rfl⟩
  rcases List.prefix_filterMap_iff.mp hfound with ⟨numbers, hnumbers, rfl⟩
  rcases List.prefix_map_iff.mp hnumbers with ⟨earlier, hearlier, rfl⟩
  exact ⟨earlier, hearlier, rfl⟩

theorem decode_eq {w : WordLevel} {ids : List TokenId} {text : String}
    (h : w.codec.decode ids = .ok text)
    : text = w.joined (w.shown (ids.map Int.toNat))
        ∧ ∀ part, part <+: ids →
            w.codec.decode part = .ok (w.joined (w.shown (part.map Int.toNat))) := by
  simp only [codec, decode] at h ⊢
  split at h
  . rename_i hall
    cases h
    refine ⟨rfl, fun part hpart => ?_⟩
    rw [if_pos]
    simp only [List.all_eq_true] at hall ⊢
    exact fun id hid => hall id (hpart.subset hid)
  . contradiction

/--
If no beginning of the tokens has a text with a newline, then their text comes out of an incremental
decoder exactly if no run of bytes takes text back.
-/
theorem stream_eq_decode_iff (w : WordLevel) {ids : List TokenId} {text : String}
    (hdecode : w.codec.decode ids = .ok text)
    (hlines : ∀ part shown, part <+: ids → w.codec.decode part = .ok shown → '\n' ∉ shown.toList)
    : IncrementalText.stream w.codec ids = (.ok (text ++ "\n"), .empty)
        ↔
      (w.join = .bytes → ∀ before bytes after,
        IsByteRun (w.shown (ids.map Int.toNat)) before bytes after → KeepsText bytes) := by
  rcases decode_eq hdecode with ⟨rfl, hpart⟩
  have hline : IncrementalText.IsLineOf w.codec
      (fun ids => w.joined (w.shown (ids.map Int.toNat))) ids :=
    ⟨hpart, fun part hprefix => hlines part _ hprefix (hpart part hprefix)⟩
  cases hjoin : w.join with
  | spaces =>
    have hgrows : ∀ part later : List TokenId, part <+: later →
        (w.joined (w.shown (part.map Int.toNat))).toList
          <+: (w.joined (w.shown (later.map Int.toNat))).toList :=
      fun part later hlater => joined_isPrefix_of_spaces hjoin (w.shown_isPrefix hlater)
    rw [IncrementalText.stream_eq_text_iff (by simp [joined, hjoin, shown]) hline
      fun part later hlater _ _ _ _ => hgrows part later hlater]
    simp only [reduceCtorEq, false_implies, iff_true]
    exact fun part hpart _ => hgrows part ids hpart
  | bytes =>
    rw [IncrementalText.stream_eq_text_iff (by simp [joined_of_bytes hjoin, shown]) hline]
    . simp only [true_implies, joined_of_bytes hjoin, String.toList_ofList,
        ← forall_isPrefix_iff_keepsText]
      constructor
      . intro h part hpart
        rcases exists_of_isPrefix_shown hpart with ⟨earlier, hearlier, rfl⟩
        exact h earlier hearlier
      . intro h part hpart
        exact h _ (w.shown_isPrefix hpart)
    . simp only [joined_of_bytes hjoin, String.toList_ofList]
      intro part later hlater hids
      exact joinBytes_isPrefix_of_isPrefix (w.shown_isPrefix hlater) (w.shown_isPrefix hids)

theorem not_mem_of_take {w : WordLevel} {ids part : List TokenId} {text : String} {c : Char}
    (h : ∀ n, n ≤ ids.length → c ∉ (w.joined (w.shown ((ids.take n).map Int.toNat))).toList)
    (hpart : part <+: ids) (hdecode : w.codec.decode part = .ok text) : c ∉ text.toList := by
  rw [(decode_eq hdecode).1, List.prefix_iff_eq_take.mp hpart]
  exact h part.length hpart.length_le

def accents : WordLevel where
  vocabulary := [("hi", 0), ("<0xC3>", 1), ("<0xA9>", 2), ("<0xFF>", 3)]
  unknown := "hi"
  added := []
  lowercase := false
  split := .whole
  join := .bytes

theorem stream_accents_keepsText
    : accents.codec.decode [1, 2, 0, 3] = .ok "éhi\uFFFD"
        ∧ IncrementalText.stream accents.codec [1, 2, 0, 3] = (.ok "éhi\uFFFD\n", .empty)
        ∧ ∀ before bytes after,
            IsByteRun (accents.shown [1, 2, 0, 3]) before bytes after → KeepsText bytes := by
  have hdecode : accents.codec.decode [1, 2, 0, 3] = .ok "éhi\uFFFD" := rfl
  have hstream : IncrementalText.stream accents.codec [1, 2, 0, 3]
      = (.ok "éhi\uFFFD\n", .empty) := rfl
  refine ⟨hdecode, hstream, (stream_eq_decode_iff accents hdecode ?_).mp hstream rfl⟩
  intro part shown hpart
  exact not_mem_of_take (by decide) hpart

theorem not_forall_stream_eq_decode
    : ¬∀ (w : WordLevel) (ids : List TokenId) (text : String), w.codec.decode ids = .ok text →
        (∀ part shown, part <+: ids → w.codec.decode part = .ok shown → '\n' ∉ shown.toList) →
          (IncrementalText.stream w.codec ids).1 = .ok (text ++ "\n") := by
  intro h
  -- The third byte makes the run invalid, after the letter of the first two has been shown.
  have hdecode : accents.codec.decode [1, 2, 3] = .ok "\uFFFD\uFFFD\uFFFD" := rfl
  have hstream : (IncrementalText.stream accents.codec [1, 2, 3]).1 = .ok "é\n" := rfl
  have hall := h accents [1, 2, 3] _ hdecode fun part shown hpart =>
    not_mem_of_take (by decide) hpart
  rw [hstream] at hall
  simp at hall

end WordLevel

end TextGen

import TextGen.Proofs.Json.Spelling
import TextGen.Proofs.Text.Lossy

/-!
A value is read back from its written form: the form spells the tokens of the value, and from these
the value is read again.
-/

namespace TextGen.Json.Value

open Token (Spells isBlank)

mutual

def tokens : Value → List Token
  | null => [.null]
  | boolean b => [.boolean b]
  | number n => [.number n]
  | text q => [.text q]
  | array items _ => .openArray :: (tokensOfItems items ++ [.closeArray])
  | object members _ => .openObject :: (tokensOfMembers members ++ [.closeObject])
  | malformed => [.malformed]

def tokensOfItems : List Value → List Token
  | [] => []
  | [v] => tokens v
  | v :: vs => tokens v ++ .comma :: tokensOfItems vs

def tokensOfMembers : List (Quoted × Value) → List Token
  | [] => []
  | [(key, v)] => .text key :: .colon :: tokens v
  | (key, v) :: rest => .text key :: .colon :: (tokens v ++ .comma :: tokensOfMembers rest)

end

inductive IsWritten : Value → Prop
  | null : IsWritten .null
  | boolean (b : Bool) : IsWritten (.boolean b)
  | number (n : Number) : IsWritten (.number n)
  | string (s : String) : IsWritten (.string s)
  | array {items : List Value} (hitems : ∀ v ∈ items, IsWritten v) : IsWritten (.array items true)
  | object {members : List (Quoted × Value)} (hkeys : ∀ m ∈ members, ∃ s, m.1 = .ofString s)
    (hvalues : ∀ m ∈ members, IsWritten m.2) : IsWritten (.object members true)

section Writing

variable {rest : List Char} {ts : List Token} {level : Nat}

theorem isEnd_newline : Number.IsEnd (newline level ++ rest) := Number.isEnd_cons (by decide)

theorem spells_newline (h : Spells rest ts) : Spells (newline level ++ rest) ts := by
  have hblanks : ∀ k, Spells (List.replicate k ' ' ++ rest) ts := by
    intro k
    induction k with
    | zero => exact h
    | succ k ih => exact .blank (by decide) ih
  exact .blank (by decide) (hblanks _)

def IsSpelled (v : Value) : Prop :=
  ∀ {level : Nat} {rest : List Char} {ts : List Token}, Number.IsEnd rest → Spells rest ts →
    Spells (v.pretty level ++ rest) (v.tokens ++ ts)

theorem spells_prettyItems {items : List Value} (hitems : ∀ v ∈ items, v.IsSpelled)
    (hend : Number.IsEnd rest) (h : Spells rest ts)
    : Spells (prettyItems level items ++ rest) (tokensOfItems items ++ ts) := by
  induction items with
  | nil => exact h
  | cons v vs ih =>
    have hv : v.IsSpelled := hitems v List.mem_cons_self
    have hvs := ih fun w hw => hitems w (List.mem_cons_of_mem _ hw)
    cases vs with
    | nil => exact hv hend h
    | cons w ws =>
      have hcomma : Spells (',' :: (newline level ++ (prettyItems level (w :: ws) ++ rest)))
          (.comma :: (tokensOfItems (w :: ws) ++ ts)) :=
        .word .comma nofun (spells_newline hvs)
      simpa [prettyItems, tokensOfItems] using hv (Number.isEnd_cons (by decide)) hcomma

theorem spells_prettyMembers {members : List (Quoted × Value)}
    (hkeys : ∀ m ∈ members, ∃ s, m.1 = .ofString s) (hvalues : ∀ m ∈ members, m.2.IsSpelled)
    (hend : Number.IsEnd rest) (h : Spells rest ts)
    : Spells (prettyMembers level members ++ rest) (tokensOfMembers members ++ ts) := by
  -- A key and its colon are spelled in front of a value that is.
  have hmember : ∀ {s : String} {cs : List Char} {us : List Token}, Spells cs us →
      Spells ((Quoted.ofString s).render ++ ':' :: ' ' :: cs)
        (.text (.ofString s) :: .colon :: us) :=
    fun h => .word (.text _) nofun (.word .colon nofun (.blank (by decide) h))
  induction members with
  | nil => exact h
  | cons m ms ih =>
    rcases m with ⟨key, v⟩
    rcases hkeys (key, v) List.mem_cons_self with ⟨s, rfl⟩
    have hv : v.IsSpelled := hvalues (.ofString s, v) List.mem_cons_self
    have hms := ih (fun m hm => hkeys m (List.mem_cons_of_mem _ hm))
      fun m hm => hvalues m (List.mem_cons_of_mem _ hm)
    cases ms with
    | nil => simpa [prettyMembers, tokensOfMembers] using hmember (hv hend h)
    | cons n ns =>
      have hcomma : Spells (',' :: (newline level ++ (prettyMembers level (n :: ns) ++ rest)))
          (.comma :: (tokensOfMembers (n :: ns) ++ ts)) :=
        .word .comma nofun (spells_newline hms)
      simpa [prettyMembers, tokensOfMembers]
        using hmember (hv (Number.isEnd_cons (by decide)) hcomma)

theorem IsWritten.isSpelled {v : Value} (h : v.IsWritten) : v.IsSpelled := by
  induction h with
  | null => exact fun _ hrest => .word .null nofun hrest
  | boolean b =>
    cases b with
    | false => exact fun _ hrest => .word (.boolean false) nofun hrest
    | true => exact fun _ hrest => .word (.boolean true) nofun hrest
  | number n =>
    intro level rest ts hend hrest
    refine .word (.number n) ?_ hrest
    exact fun _ _ => hend
  | string s => exact fun _ hrest => .word (.text s) nofun hrest
  | @array items hitems ih =>
    intro level rest ts hend hrest
    have hclose : Spells (']' :: rest) (.closeArray :: ts) := .word .closeArray nofun hrest
    cases items with
    | nil => exact .word .openArray nofun hclose
    | cons v vs =>
      have hbody : Spells ('[' :: (newline (level + 1) ++ (prettyItems (level + 1) (v :: vs)
          ++ (newline level ++ ']' :: rest))))
          (.openArray :: (tokensOfItems (v :: vs) ++ .closeArray :: ts)) :=
        .word .openArray nofun
          (spells_newline (spells_prettyItems ih isEnd_newline (spells_newline hclose)))
      simpa [pretty, tokens] using hbody
  | @object members hkeys hvalues ih =>
    intro level rest ts hend hrest
    have hclose : Spells ('}' :: rest) (.closeObject :: ts) := .word .closeObject nofun hrest
    cases members with
    | nil => exact .word .openObject nofun hclose
    | cons m ms =>
      have hbody : Spells ('{' :: (newline (level + 1) ++ (prettyMembers (level + 1) (m :: ms)
          ++ (newline level ++ '}' :: rest))))
          (.openObject :: (tokensOfMembers (m :: ms) ++ .closeObject :: ts)) :=
        .word .openObject nofun
          (spells_newline (spells_prettyMembers hkeys ih isEnd_newline (spells_newline hclose)))
      simpa [pretty, tokens] using hbody

theorem IsWritten.spells_pretty {v : Value} (h : v.IsWritten) : Spells (v.pretty 0) v.tokens := by
  have hspelled : Spells (v.pretty 0 ++ []) (v.tokens ++ []) :=
    h.isSpelled Number.isEnd_nil .nil
  rwa [List.append_nil, List.append_nil] at hspelled

end Writing

section Reading

variable {fuel : Nat} {rest : List Token}

def IsRead (v : Value) : Prop :=
  ∀ (fuel : Nat) (rest : List Token), 2 * v.tokens.length ≤ fuel →
    read fuel (v.tokens ++ rest) = (v, some rest)

theorem readItems_tokens {items : List Value} (hne : items ≠ []) (hitems : ∀ v ∈ items, v.IsRead)
    (hfuel : 2 * (tokensOfItems items).length + 1 ≤ fuel)
    : readItems fuel (tokensOfItems items ++ .closeArray :: rest) = (items, some rest) := by
  induction items generalizing fuel with
  | nil => exact absurd rfl hne
  | cons v vs ih =>
    have hv : v.IsRead := hitems v List.mem_cons_self
    cases fuel with
    | zero => omega
    | succ fuel =>
      cases vs with
      | nil =>
        have hread := hv fuel (.closeArray :: rest) (by
          simp only [tokensOfItems] at hfuel
          omega)
        simp [readItems, tokensOfItems, hread]
      | cons w ws =>
        have hlength : (tokensOfItems (v :: w :: ws)).length
            = v.tokens.length + ((tokensOfItems (w :: ws)).length + 1) := by
          simp [tokensOfItems]
        have hread := hv fuel (.comma :: (tokensOfItems (w :: ws) ++ .closeArray :: rest))
          (by omega)
        have hfuel : 2 * (tokensOfItems (w :: ws)).length + 1 ≤ fuel := by omega
        have hvs := ih (List.cons_ne_nil w ws) (fun u hu => hitems u (List.mem_cons_of_mem _ hu))
          hfuel
        simp [readItems, tokensOfItems, hread, hvs]

theorem readMembers_tokens {members : List (Quoted × Value)} (hne : members ≠ [])
    (hvalues : ∀ m ∈ members, m.2.IsRead)
    (hfuel : 2 * (tokensOfMembers members).length + 1 ≤ fuel)
    : readMembers fuel (tokensOfMembers members ++ .closeObject :: rest)
        =
      (members, some rest) := by
  induction members generalizing fuel with
  | nil => exact absurd rfl hne
  | cons m ms ih =>
    rcases m with ⟨key, v⟩
    have hv : v.IsRead := hvalues (key, v) List.mem_cons_self
    cases fuel with
    | zero => omega
    | succ fuel =>
      cases ms with
      | nil =>
        have hread := hv fuel (.closeObject :: rest) (by
          simp only [tokensOfMembers, List.length_cons] at hfuel
          omega)
        simp [readMembers, tokensOfMembers, hread]
      | cons n ns =>
        have hlength : (tokensOfMembers ((key, v) :: n :: ns)).length
            = v.tokens.length + ((tokensOfMembers (n :: ns)).length + 1) + 2 := by
          simp [tokensOfMembers]
        have hread := hv fuel (.comma :: (tokensOfMembers (n :: ns) ++ .closeObject :: rest))
          (by omega)
        have hfuel : 2 * (tokensOfMembers (n :: ns)).length + 1 ≤ fuel := by omega
        have hms := ih (List.cons_ne_nil n ns) (fun m hm => hvalues m (List.mem_cons_of_mem _ hm))
          hfuel
        simp [readMembers, tokensOfMembers, hread, hms]

theorem IsWritten.exists_tokens_eq_cons {v : Value} (h : v.IsWritten)
    : ∃ t ts, v.tokens = t :: ts ∧ t ≠ .closeArray := by
  cases h <;> exact ⟨_, _, rfl, by simp⟩

theorem exists_tokensOfItems_eq_cons {v : Value} (vs : List Value) (h : v.IsWritten)
    : ∃ t ts, tokensOfItems (v :: vs) = t :: ts ∧ t ≠ .closeArray := by
  rcases h.exists_tokens_eq_cons with ⟨t, ts, heq, hne⟩
  cases vs with
  | nil => exact ⟨t, ts, heq, hne⟩
  | cons w ws =>
    refine ⟨t, ts ++ .comma :: tokensOfItems (w :: ws), ?_, hne⟩
    simp only [tokensOfItems, heq, List.cons_append]

theorem isRead_of_tokens {v : Value} {t : Token} (htokens : v.tokens = [t])
    (hread : ∀ fuel rest, read (fuel + 1) (t :: rest) = (v, some rest))
    : v.IsRead := by
  intro fuel rest hfuel
  rw [htokens] at hfuel ⊢
  cases fuel with
  | zero => simp at hfuel
  | succ fuel => exact hread fuel rest

theorem isRead_array {items : List Value} (hitems : ∀ v ∈ items, v.IsWritten)
    (hread : ∀ v ∈ items, v.IsRead)
    : IsRead (.array items true) := by
  intro fuel rest hfuel
  have hlength : (tokens (.array items true)).length = (tokensOfItems items).length + 2 := by
    simp [tokens]
  cases fuel with
  | zero => omega
  | succ fuel =>
    cases items with
    | nil => simp [tokens, tokensOfItems, read]
    | cons v vs =>
      have hfuel : 2 * (tokensOfItems (v :: vs)).length + 1 ≤ fuel := by omega
      have hrest : readItems fuel (tokensOfItems (v :: vs) ++ .closeArray :: rest)
          = (v :: vs, some rest) := readItems_tokens (List.cons_ne_nil v vs) hread hfuel
      rcases exists_tokensOfItems_eq_cons vs (hitems v List.mem_cons_self) with ⟨t, ts, heq, hne⟩
      simp only [tokens, heq, List.cons_append, List.append_assoc, List.nil_append] at hrest ⊢
      rw [read]
      . rw [hrest]
        rfl
      . rintro _ ⟨⟩
        exact hne rfl

theorem isRead_object {members : List (Quoted × Value)} (hread : ∀ m ∈ members, m.2.IsRead)
    : IsRead (.object members true) := by
  intro fuel rest hfuel
  have hlength : (tokens (.object members true)).length = (tokensOfMembers members).length + 2 := by
    simp [tokens]
  cases fuel with
  | zero => omega
  | succ fuel =>
    cases members with
    | nil => simp [tokens, tokensOfMembers, read]
    | cons m ms =>
      have hfuel : 2 * (tokensOfMembers (m :: ms)).length + 1 ≤ fuel := by omega
      have hmembers : readMembers fuel (tokensOfMembers (m :: ms) ++ .closeObject :: rest)
          = (m :: ms, some rest) := readMembers_tokens (List.cons_ne_nil m ms) hread hfuel
      have hkey : ∃ ts, tokensOfMembers (m :: ms) = .text m.1 :: ts := by
        cases ms <;> exact ⟨_, rfl⟩
      rcases hkey with ⟨ts, heq⟩
      simp only [tokens, heq, List.cons_append, List.append_assoc, List.nil_append] at hmembers ⊢
      rw [read]
      . rw [hmembers]
        rfl
      . rintro _ ⟨⟩

theorem IsWritten.isRead {v : Value} (h : v.IsWritten) : v.IsRead := by
  induction h with
  | null => exact isRead_of_tokens rfl fun _ _ => rfl
  | boolean b => exact isRead_of_tokens rfl fun _ _ => rfl
  | number n => exact isRead_of_tokens rfl fun _ _ => rfl
  | string s => exact isRead_of_tokens rfl fun _ _ => rfl
  | array hitems ih => exact isRead_array hitems ih
  | object hkeys hvalues ih => exact isRead_object ih

end Reading

theorem IsWritten.parse_toPrettyString {v : Value} (h : v.IsWritten)
    : parse v.toPrettyString = ⟨v, true⟩ := by
  have hscan : Token.scan ((v.toPrettyString.toList.map some).map scanned) = v.tokens := by
    rw [toPrettyString, String.toList_ofList, List.map_map]
    exact (congrArg Token.scan h.spells_pretty.map_scanned).trans h.spells_pretty.scan_eq
  have hread := h.isRead (2 * v.tokens.length + 1) [] (Nat.le_succ _)
  rw [List.append_nil] at hread
  simp only [parse, parseUnits, hscan, hread]

theorem IsWritten.parseUnits_encode {v : Value} (h : v.IsWritten)
    : parseUnits (Utf8.units (Utf8.encode v.toPrettyString)) = ⟨v, true⟩ := by
  rw [Utf8.units_encode]
  exact h.parse_toPrettyString

end TextGen.Json.Value

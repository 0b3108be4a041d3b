import Mathlib.Data.List.Chain
import Mathlib.Data.List.DropRight
import Mathlib.Data.List.TakeWhile
import NycPropertyResolver.Library.Regex

/-!
# Library — words

A text whose runs of white space are one separator each is the text of its words (`unwords`).
Squeezing the white space of a trimmed text makes it one (`exists_words`), and leaves one as it is
(`squeeze_unwords`).
-/

namespace Library

variable {α : Type} {p : α → Bool} {sep : α} {w : List α} {ws vs : List (List α)}

/-- Characters, none of which is white space. -/
def IsWord (p : α → Bool) (w : List α) : Prop := w ≠ [] ∧ ∀ a ∈ w, p a = false

/-- The text of some words. -/
def unwords (sep : α) (ws : List (List α)) : List α := [sep].intercalate ws

/-- White space taken off both ends. -/
def trimBy (p : α → Bool) (text : List α) : List α := (text.dropWhile p).rdropWhile p

@[simp] theorem unwords_nil : unwords sep ([] : List (List α)) = [] := rfl

@[simp] theorem unwords_singleton : unwords sep [w] = w := List.intercalate_singleton

theorem unwords_cons (hne : ws ≠ []) : unwords sep (w :: ws) = w ++ sep :: unwords sep ws := by
  obtain ⟨v, vs, rfl⟩ := List.exists_cons_of_ne_nil hne
  simp [unwords]

theorem unwords_append (hws : ws ≠ []) (hvs : vs ≠ []) :
    unwords sep (ws ++ vs) = unwords sep ws ++ sep :: unwords sep vs := by
  induction ws with
  | nil => exact absurd rfl hws
  | cons w ws ih =>
      cases ws with
      | nil => rw [List.singleton_append, unwords_cons hvs, unwords_singleton]
      | cons v ws =>
          rw [List.cons_append, unwords_cons (by simp), unwords_cons (by simp),
            ih (List.cons_ne_nil _ _), List.append_assoc, List.cons_append]

theorem unwords_map {β : Type} (f : α → β) (sep : α) {ws : List (List α)} :
    unwords (f sep) (ws.map (List.map f)) = (unwords sep ws).map f := by
  induction ws with
  | nil => rfl
  | cons w ws ih =>
      cases ws with
      | nil => rw [List.map_singleton, unwords_singleton, unwords_singleton]
      | cons v ws =>
          rw [List.map_cons, unwords_cons (by simp), unwords_cons (by simp), ih, List.map_append,
            List.map_cons]

theorem mem_unwords {a : α} (ha : a ∈ unwords sep ws) : a = sep ∨ ∃ w ∈ ws, a ∈ w := by
  induction ws with
  | nil => cases ha
  | cons w ws ih =>
      cases ws with
      | nil =>
          rw [unwords_singleton] at ha
          exact .inr ⟨w, List.mem_cons_self, ha⟩
      | cons v ws =>
          rw [unwords_cons (List.cons_ne_nil _ _), List.mem_append, List.mem_cons] at ha
          rcases ha with ha | rfl | ha
          · exact .inr ⟨w, List.mem_cons_self, ha⟩
          · exact .inl rfl
          · rcases ih ha with rfl | ⟨u, hu, hau⟩
            · exact .inl rfl
            · exact .inr ⟨u, List.mem_cons_of_mem _ hu, hau⟩

theorem mem_unwords_of_mem {a : α} (hw : w ∈ ws) (ha : a ∈ w) : a ∈ unwords sep ws := by
  induction ws with
  | nil => cases hw
  | cons v ws ih =>
      cases ws with
      | nil =>
          rw [List.mem_singleton] at hw
          rw [unwords_singleton, ← hw]
          exact ha
      | cons u ws =>
          rw [unwords_cons (List.cons_ne_nil _ _), List.mem_append, List.mem_cons]
          rcases List.mem_cons.mp hw with rfl | hw
          · exact .inl ha
          · exact .inr (.inr (ih hw))

/-! ### The ends of a text of words -/

theorem head?_unwords (hws : ∀ w ∈ ws, IsWord p w) {a : α} (ha : (unwords sep ws).head? = some a) :
    p a = false := by
  cases ws with
  | nil => cases ha
  | cons w ws =>
      obtain ⟨hne, hw⟩ := hws w List.mem_cons_self
      obtain ⟨b, w, rfl⟩ := List.exists_cons_of_ne_nil hne
      cases ws with
      | nil =>
          cases ha
          exact hw _ List.mem_cons_self
      | cons v ws =>
          rw [unwords_cons (List.cons_ne_nil _ _)] at ha
          cases ha
          exact hw _ List.mem_cons_self

theorem getLast?_unwords (hws : ∀ w ∈ ws, IsWord p w) {a : α}
    (ha : (unwords sep ws).getLast? = some a) : p a = false := by
  induction ws with
  | nil => cases ha
  | cons w ws ih =>
      cases ws with
      | nil =>
          rw [unwords_singleton] at ha
          exact (hws w List.mem_cons_self).2 a (List.mem_of_mem_getLast? ha)
      | cons v ws =>
          have hrest := fun u hu => hws u (List.mem_cons_of_mem w hu)
          have hne : unwords sep (v :: ws) ≠ [] := by
            obtain ⟨b, v', hv⟩ := List.exists_cons_of_ne_nil (hrest v List.mem_cons_self).1
            intro hnil
            have hmem : b ∈ unwords sep (v :: ws) :=
              mem_unwords_of_mem List.mem_cons_self (hv ▸ List.mem_cons_self)
            rw [hnil] at hmem
            cases hmem
          refine ih hrest ?_
          rw [unwords_cons (List.cons_ne_nil _ _), List.getLast?_append] at ha
          rw [← ha, List.getLast?_cons]
          cases hlast : (unwords sep (v :: ws)).getLast? with
          | none => exact absurd (List.getLast?_eq_none_iff.mp hlast) hne
          | some b => rfl

/-- A text without white space at its ends is trimmed. -/
theorem trimBy_eq_self {text : List α} (hhead : ∀ a, text.head? = some a → p a = false)
    (hlast : ∀ a, text.getLast? = some a → p a = false) : trimBy p text = text := by
  have hdrop : text.dropWhile p = text := by
    cases text with
    | nil => rfl
    | cons a rest => rw [List.dropWhile_cons, hhead a rfl]; rfl
  rw [trimBy, hdrop, List.rdropWhile_eq_self_iff]
  intro hne
  rw [hlast _ (List.getLast?_eq_some_getLast hne)]
  exact Bool.false_ne_true

theorem trimBy_unwords (hws : ∀ w ∈ ws, IsWord p w) : trimBy p (unwords sep ws) = unwords sep ws :=
  trimBy_eq_self (fun _ => head?_unwords hws) (fun _ => getLast?_unwords hws)

theorem head?_dropWhile {text : List α} {a : α} (ha : (text.dropWhile p).head? = some a) :
    p a = false := by
  have hnot := List.head?_dropWhile_not p text
  rw [ha] at hnot
  exact hnot

/-- What trimming leaves has no white space at its ends. -/
theorem head?_trimBy {text : List α} {a : α} (ha : (trimBy p text).head? = some a) : p a = false := by
  have hpre : trimBy p text <+: text.dropWhile p := List.rdropWhile_prefix _ _
  obtain ⟨rest, hrest⟩ := hpre
  obtain ⟨tail, htail⟩ := List.head?_eq_some_iff.mp ha
  have hdrop : (text.dropWhile p).head? = some a := by
    rw [← hrest, htail]
    rfl
  exact head?_dropWhile hdrop

theorem getLast?_trimBy {text : List α} {a : α} (ha : (trimBy p text).getLast? = some a) :
    p a = false := by
  have hne : trimBy p text ≠ [] := by
    intro hnil
    rw [hnil] at ha
    cases ha
  have hlast := List.rdropWhile_last_not p (text.dropWhile p) hne
  rw [List.getLast?_eq_some_getLast hne, Option.some_inj] at ha
  subst ha
  exact Bool.not_eq_true _ ▸ hlast

theorem mem_of_mem_trimBy {text : List α} {a : α} (ha : a ∈ trimBy p text) : a ∈ text :=
  List.dropWhile_subset _ ((List.rdropWhile_prefix _ _).subset ha)

/-! ### Squeezing -/

/-- Characters other than white space are kept. -/
theorem squeeze_append {rest replacement : List α} (hw : ∀ a ∈ w, p a = false) :
    Regex.squeeze p replacement (w ++ rest) = w ++ Regex.squeeze p replacement rest := by
  induction w with
  | nil => rfl
  | cons a w ih =>
      obtain ⟨ha, hw⟩ := List.forall_mem_cons.mp hw
      rw [List.cons_append, Regex.squeeze, ha, if_neg Bool.false_ne_true, ih hw]
      rfl

/-- **A text of words is squeezed already.** -/
theorem squeeze_unwords (hsep : p sep = true) (hws : ∀ w ∈ ws, IsWord p w) :
    Regex.squeeze p [sep] (unwords sep ws) = unwords sep ws := by
  induction ws with
  | nil => simp [Regex.squeeze]
  | cons w ws ih =>
      obtain ⟨⟨-, hw⟩, hrest⟩ := List.forall_mem_cons.mp hws
      cases ws with
      | nil =>
          have h : Regex.squeeze p [sep] (w ++ []) = w ++ Regex.squeeze p [sep] [] := squeeze_append hw
          rw [Regex.squeeze, List.append_nil] at h
          rw [unwords_singleton, h]
      | cons v ws =>
          have hdrop : (unwords sep (v :: ws)).dropWhile p = unwords sep (v :: ws) := by
            cases hv : unwords sep (v :: ws) with
            | nil => rfl
            | cons a rest =>
                have ha : p a = false := head?_unwords hrest (by rw [hv]; rfl)
                rw [List.dropWhile_cons, ha]
                rfl
          rw [unwords_cons (List.cons_ne_nil _ _), squeeze_append hw, Regex.squeeze, if_pos hsep,
            hdrop, ih hrest, List.singleton_append]

/-- A squeezed text without white space at its ends is a text of words. -/
theorem exists_words_of_ends (sep : α) {text : List α} (hhead : ∀ a, text.head? = some a → p a = false)
    (hlast : ∀ a, text.getLast? = some a → p a = false) :
    ∃ ws, (∀ w ∈ ws, IsWord p w ∧ ∀ a ∈ w, a ∈ text) ∧
      Regex.squeeze p [sep] text = unwords sep ws := by
  induction hn : text.length using Nat.strong_induction_on generalizing text with
  | _ n ih =>
      subst hn
      cases text with
      | nil => exact ⟨[], by simp, by simp [Regex.squeeze]⟩
      | cons a rest =>
          -- the first word, and what comes after it
          have ha : p a = false := hhead a rfl
          set w := (a :: rest).takeWhile fun b => !p b with hw
          set tail := (a :: rest).dropWhile fun b => !p b with htail
          have hsplit : a :: rest = w ++ tail := (List.takeWhile_append_dropWhile).symm
          have hword : IsWord p w := by
            refine ⟨by simp [hw, ha], fun b hb => ?_⟩
            simpa using List.mem_takeWhile_imp hb
          have hwtext : ∀ b ∈ w, b ∈ a :: rest := fun b hb => List.takeWhile_subset _ hb
          rw [hsplit, squeeze_append hword.2, ← hsplit]
          cases htail' : tail with
          | nil =>
              refine ⟨[w], fun v hv => ?_, by simp [Regex.squeeze]⟩
              rw [List.mem_singleton.mp hv]
              exact ⟨hword, hwtext⟩
          | cons b tail' =>
              have hb : p b = true := by
                have hnot := List.head?_dropWhile_not (fun b => !p b) (a :: rest)
                rw [← htail, htail'] at hnot
                simpa using hnot
              -- the text after the white space
              set text' := tail'.dropWhile p with htext'
              have hends : (a :: rest) = w ++ b :: (tail'.takeWhile p ++ text') := by
                rw [hsplit, htail', htext', List.takeWhile_append_dropWhile]
              have hne : text' ≠ [] := by
                intro hnil
                have hall := List.dropWhile_eq_nil_iff.mp hnil
                obtain ⟨c, hc⟩ : ∃ c, (b :: tail').getLast? = some c :=
                  ⟨_, List.getLast?_eq_some_getLast (List.cons_ne_nil _ _)⟩
                have hp : p c = true := by
                  rcases List.mem_cons.mp (List.mem_of_getLast? hc) with rfl | hmem
                  · exact hb
                  · exact hall c hmem
                have hpc := hlast c (by rw [hsplit, htail', List.getLast?_append, hc]; rfl)
                rw [hpc] at hp
                cases hp
              have hlength : text'.length < (a :: rest).length := by
                rw [hends]
                simp only [List.length_append, List.length_cons]
                omega
              have hhead' : ∀ c, text'.head? = some c → p c = false := fun c hc => head?_dropWhile hc
              have hlast' : ∀ c, text'.getLast? = some c → p c = false := by
                intro c hc
                refine hlast c ?_
                rw [hends, List.getLast?_append, List.getLast?_cons, List.getLast?_append, hc]
                rfl
              obtain ⟨ws, hws, hsqueeze⟩ := ih text'.length hlength hhead' hlast' rfl
              have hwsne : ws ≠ [] := by
                rintro rfl
                obtain ⟨c, tail'', hc⟩ := List.exists_cons_of_ne_nil hne
                have hhead : (tail'.dropWhile p).head? = some c := by rw [← htext', hc]; rfl
                have hpc : p c = false := head?_dropWhile hhead
                rw [hc, Regex.squeeze, hpc, if_neg Bool.false_ne_true] at hsqueeze
                cases hsqueeze
              refine ⟨w :: ws, fun v hv => ?_, ?_⟩
              · rcases List.mem_cons.mp hv with rfl | hv
                · exact ⟨hword, hwtext⟩
                · refine ⟨(hws v hv).1, fun c hc => ?_⟩
                  rw [hends]
                  simp [(hws v hv).2 c hc]
              · rw [Regex.squeeze, if_pos hb, ← htext', hsqueeze, unwords_cons hwsne,
                  List.singleton_append]

/-- **Trimming and squeezing give a text of words.** -/
theorem exists_words (p : α → Bool) (sep : α) (text : List α) :
    ∃ ws, (∀ w ∈ ws, IsWord p w ∧ ∀ a ∈ w, a ∈ text) ∧
      Regex.squeeze p [sep] (trimBy p text) = unwords sep ws := by
  have hhead : ∀ a, (trimBy p text).head? = some a → p a = false := fun _ => head?_trimBy
  have hlast : ∀ a, (trimBy p text).getLast? = some a → p a = false := fun _ => getLast?_trimBy
  obtain ⟨ws, hws, hsqueeze⟩ := exists_words_of_ends sep hhead hlast
  exact ⟨ws, fun w hw => ⟨(hws w hw).1, fun a ha => mem_of_mem_trimBy ((hws w hw).2 a ha)⟩, hsqueeze⟩

/-! ### The white space in a text of words -/

/-- No two characters of white space are next to each other, and each is the separator. -/
structure Spaced (p : α → Bool) (sep : α) (text : List α) : Prop where
  chain : text.IsChain fun a b => p a = true → p b = false
  eq_sep : ∀ a ∈ text, p a = true → a = sep
  last : ∀ a, text.getLast? = some a → p a = false

theorem spaced_unwords (hws : ∀ w ∈ ws, IsWord p w) : Spaced p sep (unwords sep ws) where
  chain := by
    induction ws with
    | nil => exact .nil
    | cons w ws ih =>
        obtain ⟨⟨-, hw⟩, hrest⟩ := List.forall_mem_cons.mp hws
        have hchain : w.IsChain fun a b => p a = true → p b = false :=
          (List.pairwise_of_forall_mem_list fun a _ b hb (_ : p a = true) => hw b hb).isChain
        cases ws with
        | nil => rwa [unwords_singleton]
        | cons v ws =>
            rw [unwords_cons (List.cons_ne_nil _ _), List.isChain_append]
            refine ⟨hchain, ?_, fun a ha b hb hpa => ?_⟩
            · rw [List.isChain_cons]
              exact ⟨fun b hb _ => head?_unwords hrest hb, ih hrest⟩
            · rw [hw a (List.mem_of_mem_getLast? ha)] at hpa
              cases hpa
  eq_sep := by
    intro a ha hpa
    rcases mem_unwords ha with rfl | ⟨w, hw, haw⟩
    · rfl
    · rw [(hws w hw).2 a haw] at hpa
      cases hpa
  last := fun _ => getLast?_unwords hws

/-- A run of white space is empty, or one separator with something after it. -/
theorem Spaced.gap {text before gap rest : List α} (h : Spaced p sep text)
    (htext : text = before ++ (gap ++ rest)) (hgap : ∀ a ∈ gap, p a = true) :
    gap = [] ∨ gap = [sep] ∧ rest ≠ [] := by
  subst htext
  have hchain := h.chain.right_of_append.left_of_append
  rcases gap with _ | ⟨a, _ | ⟨b, gap⟩⟩
  · exact .inl rfl
  · refine .inr ⟨?_, ?_⟩
    · rw [h.eq_sep a (by simp) (hgap a List.mem_cons_self)]
    · rintro rfl
      have hlast := h.last a (by simp)
      rw [hgap a List.mem_cons_self] at hlast
      cases hlast
  · have hb := (List.isChain_cons_cons.mp hchain).1 (hgap a List.mem_cons_self)
    rw [hgap b (by simp)] at hb
    cases hb

/-! ### The words of a text -/

/-- The words of a text: the pieces between its white space that are not empty. -/
def wordsOf (p : α → Bool) (text : List α) : List (List α) :=
  (text.splitOnP p).filter fun w => !w.isEmpty

section WordsOf

variable {text text' gap gap' : List α}

@[simp] theorem wordsOf_nil : wordsOf p [] = [] := by simp [wordsOf]

theorem wordsOf_append_cons {a : α} (ha : p a = true) :
    wordsOf p (text ++ a :: text') = wordsOf p text ++ wordsOf p text' := by
  rw [wordsOf, List.splitOnP_append_cons _ _ ha, List.filter_append, wordsOf, wordsOf]

/-- White space in front of a text is no word. -/
theorem wordsOf_gap_append (hgap : ∀ a ∈ gap, p a = true) :
    wordsOf p (gap ++ text) = wordsOf p text := by
  induction gap with
  | nil => rfl
  | cons a gap ih =>
      obtain ⟨ha, hgap⟩ := List.forall_mem_cons.mp hgap
      have hcons : wordsOf p ([] ++ a :: (gap ++ text)) = wordsOf p [] ++ wordsOf p (gap ++ text) :=
        wordsOf_append_cons ha
      simpa [ih hgap] using hcons

/-- **White space between texts ends the words of the first.** -/
theorem wordsOf_append_gap_append (hne : gap ≠ []) (hgap : ∀ a ∈ gap, p a = true) :
    wordsOf p (text ++ (gap ++ text')) = wordsOf p text ++ wordsOf p text' := by
  cases gap with
  | nil => exact absurd rfl hne
  | cons a gap =>
      obtain ⟨ha, hgap⟩ := List.forall_mem_cons.mp hgap
      rw [List.cons_append, wordsOf_append_cons ha, wordsOf_gap_append hgap]

/-- White space after a text is no word. -/
theorem wordsOf_append_gap (hgap : ∀ a ∈ gap, p a = true) :
    wordsOf p (text ++ gap) = wordsOf p text := by
  by_cases hne : gap = []
  · simp [hne]
  · have happend : wordsOf p (text ++ (gap ++ [])) = wordsOf p text ++ wordsOf p [] :=
      wordsOf_append_gap_append hne hgap
    simpa using happend

theorem wordsOf_of_isWord (hw : IsWord p w) : wordsOf p w = [w] := by
  rw [wordsOf, List.splitOnP_eq_singleton hw.2]
  simp [hw.1]

theorem wordsOf_unwords (hsep : p sep = true) (hws : ∀ w ∈ ws, IsWord p w) :
    wordsOf p (unwords sep ws) = ws := by
  induction ws with
  | nil => exact wordsOf_nil
  | cons w ws ih =>
      obtain ⟨hw, hrest⟩ := List.forall_mem_cons.mp hws
      cases ws with
      | nil => rw [unwords_singleton, wordsOf_of_isWord hw]
      | cons v ws =>
          rw [unwords_cons (List.cons_ne_nil _ _), wordsOf_append_cons hsep, wordsOf_of_isWord hw,
            ih hrest]
          rfl

theorem wordsOf_dropWhile : wordsOf p (text.dropWhile p) = wordsOf p text := by
  have happend : wordsOf p (text.takeWhile p ++ text.dropWhile p) = wordsOf p (text.dropWhile p) :=
    wordsOf_gap_append fun a ha => List.mem_takeWhile_imp ha
  rw [← happend, List.takeWhile_append_dropWhile]

theorem wordsOf_trimBy : wordsOf p (trimBy p text) = wordsOf p text := by
  have happend : wordsOf p ((text.dropWhile p).rdropWhile p ++ (text.dropWhile p).rtakeWhile p) =
      wordsOf p ((text.dropWhile p).rdropWhile p) :=
    wordsOf_append_gap fun a ha => List.mem_rtakeWhile_imp ha
  rw [trimBy, ← happend, List.rdropWhile_append_rtakeWhile, wordsOf_dropWhile]

/-- Squeezing the white space after `before` keeps the words. -/
theorem wordsOf_append_squeeze (hsep : p sep = true) (before text : List α) :
    wordsOf p (before ++ Regex.squeeze p [sep] text) = wordsOf p (before ++ text) := by
  fun_induction Regex.squeeze p [sep] text generalizing before with
  | case1 => rfl
  | case2 a rest ha ih =>
      have hrest : wordsOf p (Regex.squeeze p [sep] (rest.dropWhile p)) = wordsOf p rest :=
        (ih []).trans wordsOf_dropWhile
      rw [List.singleton_append, wordsOf_append_cons hsep, wordsOf_append_cons ha, hrest]
  | case3 a rest ha ih => simpa using ih (before ++ [a])

/-- **Trimmed and squeezed, a text is its words.** -/
theorem squeeze_trimBy (hsep : p sep = true) :
    Regex.squeeze p [sep] (trimBy p text) = unwords sep (wordsOf p text) := by
  obtain ⟨ws, hws, hsqueeze⟩ := exists_words p sep text
  have hwords : wordsOf p text = ws := by
    rw [← wordsOf_trimBy, ← List.nil_append (trimBy p text), ← wordsOf_append_squeeze hsep,
      List.nil_append, hsqueeze, wordsOf_unwords hsep fun w hw => (hws w hw).1]
  rw [hsqueeze, hwords]

/-- The words of a text whose characters have been replaced by others, white space by white space. -/
theorem wordsOf_map {β : Type} {q : β → Bool} (f : α → β) (hf : ∀ a, q (f a) = p a) (text : List α) :
    wordsOf q (text.map f) = (wordsOf p text).map (List.map f) := by
  have hsplit : (text.map f).splitOnP q = (text.splitOnP p).map (List.map f) := by
    induction text with
    | nil => rfl
    | cons a text ih =>
        rw [List.map_cons, List.splitOnP_cons_eq_if_modifyHead, List.splitOnP_cons_eq_if_modifyHead,
          hf, ih]
        by_cases ha : p a = true
        · simp [ha]
        · simp only [ha]
          cases text.splitOnP p <;> rfl
  rw [wordsOf, hsplit, List.filter_map, wordsOf]
  simp [Function.comp_def]

end WordsOf

end Library

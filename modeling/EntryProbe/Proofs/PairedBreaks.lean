import EntryProbe.Proofs.Gaps
import EntryProbe.Proofs.Weaving

/-!
# Line breaks of one form

A file may have a carriage return in front of each of its line feeds, and it should be left
so. The printer looks at one line break only, the one that a run is put in front of. That is
enough if there is one: all others are of the same form. If there is none, the run has bare
line feeds, whatever the rest of the file looks like.

So a text that is made from a source by putting runs into gaps (`EntryProbe.Go.Respliced`)
has line breaks of one form exactly if each of these gaps has a line break of its own.

* `EntryProbe.Go.PairedBreaks` – carriage returns and line feeds come in pairs;
* `EntryProbe.Go.PairedBreaks.splice` – one gap;
* `EntryProbe.Go.Respliced.pairedBreaks_iff` – any number of gaps.
-/

namespace EntryProbe.Go

/-! ### Texts -/

/-- **Carriage returns and line feeds come in pairs.** -/
structure PairedBreaks (text : List Char) : Prop where
  /-- There is a carriage return in front of each line feed, -/
  before_feed {before after : List Char} : text = before ++ '\n' :: after →
    before.getLast? = some '\r'
  /-- and a line feed behind each carriage return. -/
  after_return {before after : List Char} : text = before ++ '\r' :: after →
    after.head? = some '\n'

namespace PairedBreaks

variable {text text' : List Char}

/-- Nothing but line breaks matters. -/
theorem of_noBreak (hfeed : '\n' ∉ text) (hreturn : '\r' ∉ text) : PairedBreaks text where
  before_feed h := absurd (by simp [h]) hfeed
  after_return h := absurd (by simp [h]) hreturn

theorem pair : PairedBreaks ['\r', '\n'] where
  before_feed {before after} h := by
    rcases before with _ | ⟨c, _ | ⟨d, before⟩⟩
    · cases h
    · cases h
      rfl
    · simp at h
  after_return {before after} h := by
    rcases before with _ | ⟨c, _ | ⟨d, before⟩⟩
    · cases h
      rfl
    · cases h
    · simp at h

/-- The last character is no carriage return. -/
theorem getLast?_ne (h : PairedBreaks text) : text.getLast? ≠ some '\r' := by
  intro hlast
  obtain ⟨before, rfl⟩ := List.getLast?_eq_some_iff.mp hlast
  cases h.after_return rfl

/-- The first character is no line feed. -/
theorem head?_ne (h : PairedBreaks text) : text.head? ≠ some '\n' := by
  intro hhead
  obtain ⟨after, rfl⟩ := List.head?_eq_some_iff.mp hhead
  cases @before_feed _ h [] after rfl

/-- **Texts are put together.** -/
theorem append (h : PairedBreaks text) (h' : PairedBreaks text') :
    PairedBreaks (text ++ text') where
  before_feed {before after} heq := by
    rcases List.append_eq_append_iff.mp heq with ⟨mid, rfl, hright⟩ | ⟨mid, hleft, hright⟩
    · have hlast := h'.before_feed hright
      rw [List.getLast?_append, hlast]
      rfl
    · cases mid with
      | nil =>
        rw [List.nil_append] at hright
        exact absurd (by rw [← hright]; rfl) h'.head?_ne
      | cons c mid =>
        obtain ⟨rfl, -⟩ := List.cons.inj hright
        exact h.before_feed hleft
  after_return {before after} heq := by
    rcases List.append_eq_append_iff.mp heq with ⟨mid, rfl, hright⟩ | ⟨mid, hleft, hright⟩
    · exact h'.after_return hright
    · cases mid with
      | nil => exact @after_return _ h' [] after hright.symm
      | cons c mid =>
        have hafter : after = mid ++ text' := (List.cons.inj hright).2
        obtain rfl := (List.cons.inj hright).1
        have hhead := h.after_return hleft
        rw [hafter, List.head?_append, hhead]
        rfl

/-- **A text is cut** where no pair is torn apart. -/
theorem of_append (h : PairedBreaks (text ++ text'))
    (hcut : text.getLast? ≠ some '\r' ∨ text'.head? ≠ some '\n') :
    PairedBreaks text ∧ PairedBreaks text' := by
  refine ⟨⟨fun {before after} heq => ?_, fun {before after} heq => ?_⟩,
    ⟨fun {before after} heq => ?_, fun {before after} heq => ?_⟩⟩
  · exact @before_feed _ h before (after ++ text') (by simp [heq])
  · have hhead := @after_return _ h before (after ++ text') (by simp [heq])
    cases after with
    | nil => exact absurd hhead (hcut.resolve_left (by simp [heq]))
    | cons c after => exact hhead
  · have hlast := @before_feed _ h (text ++ before) after (by simp [heq])
    cases before with
    | nil =>
      rw [List.append_nil] at hlast
      exact absurd hlast (hcut.resolve_right (by simp [heq]))
    | cons c before => simpa using hlast
  · exact @after_return _ h (text ++ before) after (by simp [heq])

/-- A text gets line breaks of one form if it had none of the other. -/
theorem withReturns (h : '\r' ∉ text) : PairedBreaks (withCarriageReturns text) := by
  induction text with
  | nil => exact of_noBreak (by simp [withCarriageReturns]) (by simp [withCarriageReturns])
  | cons c text ih =>
    rw [List.mem_cons, not_or] at h
    have hfirst : PairedBreaks (if c = '\n' then ['\r', '\n'] else [c]) := by
      split
      · exact pair
      · next hc => exact of_noBreak (by simpa using Ne.symm hc) (by simpa using h.1)
    exact hfirst.append (ih h.2)

end PairedBreaks

/-! ### Gaps -/

section

variable {gap run : List Char}

/-- **A gap with a line break takes a run** with line breaks of the same form. -/
theorem PairedBreaks.splice (h : PairedBreaks gap) (hbreak : (splitAtLineBreak? gap).isSome)
    (hrun : '\r' ∉ run) (hne : run ≠ []) (indent : List Char) :
    PairedBreaks (Go.splice gap run indent) := by
  obtain ⟨⟨line, rest⟩, hsplit⟩ := Option.isSome_iff_exists.mp hbreak
  have happend : line ++ rest = gap := splitAtLineBreakFrom?_append hsplit
  obtain ⟨rest, rfl⟩ := List.head?_eq_some_iff.mp (head_of_splitAtLineBreakFrom? hsplit)
  have hlast : line.getLast? = some '\r' := h.before_feed happend.symm
  simp only [Go.splice, cutAtLineBreak?_eq, if_neg hne, hsplit, if_pos hlast]
  obtain ⟨line, rfl⟩ := List.getLast?_eq_some_iff.mp hlast
  rw [List.dropLast_concat]
  -- the blanks that are dropped stand in front of the carriage return
  obtain ⟨blanks, hline, hblanks⟩ := exists_trimLineEnd line
  have hgap : PairedBreaks (trimLineEnd line ++ (blanks ++ '\r' :: '\n' :: rest)) := by
    rw [← List.append_assoc, ← hline]
    simpa [← happend] using h
  obtain ⟨hkept, hbehind⟩ := hgap.of_append <| .inr <| by
    cases blanks with
    | nil => simp
    | cons c blanks => rcases hblanks c (by simp) with rfl | rfl <;> simp
  obtain ⟨-, hreturn⟩ := hbehind.of_append (.inr (by simp))
  exact (hkept.append (.withReturns hrun)).append hreturn

/-- A gap without a line break takes a run at its start. -/
theorem head?_splice (hbreak : splitAtLineBreak? gap = none) (hrun : run.head? = some '\n')
    (indent : List Char) : (splice gap run indent).head? = some '\n' := by
  obtain ⟨run, rfl⟩ := List.head?_eq_some_iff.mp hrun
  simp only [splice, cutAtLineBreak?_eq, List.cons_ne_nil, if_false, hbreak]
  split
  · rfl
  · rfl

end

/-! ### Texts with runs in their gaps -/

/-- **Runs are put into gaps of a text.** The condition is that all of these gaps have a line
break outside comments. A gap is what lies between a character that is no carriage return
and one that is no line feed. -/
inductive Respliced : Prop → List Char → List Char → Prop
  /-- Nothing is put in. -/
  | same (text : List Char) : Respliced True text text
  /-- A run is put into the first gap. -/
  | splice {condition : Prop} {front gap run indent text out : List Char} {c : Char} :
      c ≠ '\r' → text.head? ≠ some '\n' → '\r' ∉ run → run.head? = some '\n' →
      Respliced condition text out →
      Respliced ((splitAtLineBreak? gap).isSome ∧ condition) (front ++ c :: (gap ++ text))
        (front ++ c :: (Go.splice gap run indent ++ out))

namespace Respliced

variable {condition condition' : Prop} {text out : List Char}

theorem congr (h : Respliced condition text out) (hiff : condition ↔ condition') :
    Respliced condition' text out := by
  rwa [← propext hiff]

/-- What stands in front stays. -/
theorem append_left (h : Respliced condition text out) (front : List Char) :
    Respliced condition (front ++ text) (front ++ out) := by
  cases h with
  | same => exact .same _
  | splice hc htext hrun hhead h =>
    rw [← List.append_assoc, ← List.append_assoc]
    exact .splice hc htext hrun hhead h

/-- **Line breaks stay of one form** if and only if each gap that a run is put into has a line
break. -/
theorem pairedBreaks_iff (h : Respliced condition text out) (hpaired : PairedBreaks text) :
    PairedBreaks out ↔ condition := by
  induction h with
  | same text => exact ⟨fun _ => trivial, fun _ => hpaired⟩
  | @splice condition front gap run indent text out c hc htext hrun hhead h ih =>
    have hne : run ≠ [] := by
      rintro rfl
      cases hhead
    have hfront : (front ++ [c]).getLast? ≠ some '\r' := by simpa using hc
    have hassoc : ∀ rest, front ++ c :: rest = (front ++ [c]) ++ rest := fun rest => by simp
    rw [hassoc] at hpaired ⊢
    obtain ⟨hbefore, hbehind⟩ := hpaired.of_append (.inl hfront)
    obtain ⟨hgap, hrest⟩ := hbehind.of_append (.inr htext)
    cases hbreak : splitAtLineBreak? gap with
    | none =>
      -- the first line feed of the run has no carriage return in front of it
      refine ⟨fun hout => ?_, fun hcondition => by cases hcondition.1⟩
      obtain ⟨-, hrun⟩ := hout.of_append (.inl hfront)
      refine absurd ?_ hrun.head?_ne
      rw [List.head?_append, head?_splice hbreak hhead]
      rfl
    | some parts =>
      have hspliced := hgap.splice (by rw [hbreak]; rfl) hrun hne indent
      rw [← List.append_assoc]
      have hkept := hbefore.append hspliced
      refine ⟨fun hout => ⟨rfl, (ih hrest).mp ?_⟩, fun hcondition => ?_⟩
      · exact (hout.of_append (.inl hkept.getLast?_ne)).2
      · exact hkept.append ((ih hrest).mpr hcondition.2)

end Respliced

end EntryProbe.Go

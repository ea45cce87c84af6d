import EntryProbe.Proofs.ImportRun
import EntryProbe.Proofs.KeptComments
import EntryProbe.Proofs.Unquoting

/-!
# The runs of instrumenting have no comments

What is asked of a run, that it opens no comment and leaves no literal open
(`EntryProbe.Go.OpensNothing`), holds of the runs that instrumenting makes up. The imports are
fixed, but the block has the path of the profile in it, twice and in full. Any slash of the
path stays inside its literals, because what is written for a character is passed over there
(`EntryProbe.Go.leadsClear_of_writtenAs`).

* `EntryProbe.Go.opensNothing_importRun` – the imports that are missing;
* `EntryProbe.Go.opensNothing_blockRun` – the block, for any path.
-/

namespace EntryProbe.Go

open Profiling
open TextMode (code)

/-! ### From one mode to another -/

/-- A text leads from one mode to another, and opens no comment on the way. -/
structure LeadsClear (mode : TextMode) (text : List Char) (mode' : TextMode) : Prop where
  /-- There are no comments. -/
  comments_eq : (commentsFrom mode text).2 = []
  /-- The mode at the end. -/
  after_eq : mode.after text = mode'

namespace LeadsClear

variable {mode mid mode' : TextMode} {text text' : List Char}

theorem nil (mode : TextMode) : LeadsClear mode [] mode := ⟨rfl, rfl⟩

theorem append (h : LeadsClear mode text mid) (h' : LeadsClear mid text' mode')
    (hmid : mid.inComment = false) : LeadsClear mode (text ++ text') mode' where
  comments_eq := by
    have hfirst : (commentsFrom (mode.after text) text').1 = [] := by
      rw [h.after_eq]
      exact commentsFrom_fst hmid text'
    rw [commentsFrom_append hfirst, h.comments_eq, h.after_eq, h'.comments_eq, List.append_nil]
  after_eq := by rw [TextMode.after_append, h.after_eq, h'.after_eq]

/-- A text that stays in one mode. -/
theorem of_stays (hmode : mode.inComment = false) (hstep : ∀ c ∈ text, mode.step c = mode) :
    LeadsClear mode text mode := by
  obtain ⟨hcomments, hafter⟩ := commentsFrom_of_stays hmode hstep []
  rw [List.append_nil] at hcomments
  exact ⟨by rw [hcomments, commentsFrom_nil], hafter⟩

end LeadsClear

/-! ### Literals -/

/-- A plain character stays inside a string. -/
theorem step_quoted_of_isPlain {c : Char} (h : isPlainInString c = true) :
    (TextMode.quoted .double).step c = .quoted .double := by
  simp only [isPlainInString, Bool.and_eq_true, bne_iff_ne, ne_eq] at h
  obtain ⟨⟨⟨hquote, hline⟩, hslash⟩, -⟩ := h
  have hmark : c ≠ Quote.double.mark := hquote
  simp [TextMode.step, hmark, hline, hslash]

/-- Plain characters stay inside a string. -/
theorem leadsClear_plain {text : List Char} (h : text.all isPlainInString = true) :
    LeadsClear (.quoted .double) text (.quoted .double) :=
  .of_stays rfl fun c hc => step_quoted_of_isPlain (List.all_eq_true.mp h c hc)

/-- An escape stays inside a string, and so do plain characters after it. -/
theorem leadsClear_escape {c : Char} (hline : c ≠ '\n') {text : List Char}
    (htext : text.all isPlainInString = true) :
    LeadsClear (.quoted .double) ('\\' :: c :: text) (.quoted .double) := by
  have hstep : (TextMode.escaped .double).step c = .quoted .double := if_neg hline
  have hescape : LeadsClear (.quoted .double) ['\\', c] (.quoted .double) := by
    refine ⟨?_, hstep⟩
    rw [commentsFrom_cons rfl rfl]
    change (commentsFrom (.escaped .double) [c]).2 = []
    rw [commentsFrom_cons rfl (by rw [hstep]; rfl)]
    rfl
  exact hescape.append (leadsClear_plain htext) rfl

/-- **What is written for a character stays inside the literal.** -/
theorem leadsClear_of_writtenAs {c : Char} {text : List Char} (h : Quoted.WrittenAs c text) :
    LeadsClear (.quoted .double) text (.quoted .double) := by
  have hdigits := Quoted.hexDigits_all Quoted.isPlainInString_hexDigit
  rcases h with ⟨hplain, -⟩ | ⟨hmem, -⟩ | - | - | -
  · exact leadsClear_plain (by simpa using hplain)
  · refine leadsClear_escape ?_ rfl
    rintro rfl
    exact absurd hmem (by decide)
  · exact leadsClear_escape (by decide) (hdigits 2 _)
  · exact leadsClear_escape (by decide) (hdigits 4 _)
  · exact leadsClear_escape (by decide) (hdigits 8 _)

/-- **A literal has no comments in it**, and is closed at its end. -/
theorem leadsClear_encode (text : List Char) : LeadsClear code (Quoted.encode text) code := by
  have hinside : LeadsClear (.quoted .double) (text.flatMap Quoted.encodeChar)
      (.quoted .double) := by
    induction text with
    | nil => exact .nil _
    | cons c text ih =>
      rw [List.flatMap_cons]
      exact (leadsClear_of_writtenAs (Quoted.writtenAs_encodeChar c)).append ih rfl
  have hopen : LeadsClear code ['"'] (.quoted .double) := ⟨by decide, by decide⟩
  have hclose : LeadsClear (.quoted .double) ['"'] code := ⟨by decide, by decide⟩
  exact (hopen.append hinside rfl).append hclose rfl

/-! ### The runs -/

theorem LeadsClear.opensNothing {text : List Char} (h : LeadsClear code text code) :
    OpensNothing text where
  comments_eq := h.comments_eq
  isClear := by rw [h.after_eq]; rfl

/-- **The block opens no comment**, whatever the path of the profile is. -/
theorem opensNothing_blockRun (profile : String) : OpensNothing (blockRun profile) := by
  have hstart : LeadsClear code ('\n' :: '\t' :: unscan (blockStart [] ['\n'])) code :=
    ⟨by decide, by decide⟩
  have hmiddle : LeadsClear code (unscan (blockMiddle ['\n'])) code := ⟨by decide, by decide⟩
  have hend : LeadsClear code (unscan (blockEnd ['\n'])) code :=
    ⟨by decide +kernel, by decide +kernel⟩
  have hname := leadsClear_encode profile.toList
  have hmessage := leadsClear_encode (openMessage profile).toList
  have hall := ((hstart.append hname rfl).append hmiddle rfl).append
    (hmessage.append hend rfl) rfl
  rw [blockRun, rendered_preamble]
  simpa [blockTokens, Token.quoted] using hall.opensNothing

/-- The imports open no comment. -/
theorem opensNothing_importRun (file : SourceFile) :
    OpensNothing (importRun (missingImports file)) := by
  simp only [missingImports, List.filter_cons, List.filter_nil]
  split <;> split <;> exact ⟨by decide, by decide⟩

end EntryProbe.Go

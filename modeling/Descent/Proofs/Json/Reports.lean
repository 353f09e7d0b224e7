import Descent.Json.Command
import Descent.Proofs.Json.Documents
import Descent.Proofs.Json.Options

/-!
What the command reports of a text.  The value, or what is wrong with the text, is that of a reading
that leaves no trace, so the option for the trace adds a trace and changes nothing else.
-/

set_option autoImplicit false
set_option relaxedAutoImplicit false

namespace Descent.Json

theorem trace_readWithin_untraced (limit : Nat) (t : Text) : (readWithin limit t false).trace = [] :=
  (documentGrammar.run_eq_run_erase documentStore limit (.text t) 0).2

/-- The report of a text: what a reading without a trace says, and the trace of the reading. -/
theorem reportTextWithin_eq (limit : Nat) (t : Text) (traced : Bool) :
    reportTextWithin limit t traced =
      match (readWithin limit t false).ending with
      | .ok v => ⟨.status 0, v.pretty ++ [Code.ofChar '\n'], (readWithin limit t traced).trace.text⟩
      | .error (.malformed position why) =>
        ⟨.status 1, [], (readWithin limit t traced).trace.text ++ malformedMessage position why
          ++ [Code.ofChar '\n']⟩
      | .error (.fault f) => ⟨.fault f, [], (readWithin limit t traced).trace.text⟩ := by
  have hending : (readWithin limit t traced).ending = (readWithin limit t false).ending :=
    readWithin_untraced limit t traced
  unfold reportTextWithin
  rewrite [← hending]
  -- What is compared are two reports of one reading, so how it comes about stays closed.
  generalize readWithin limit t traced = r
  rcases r with ⟨(⟨position, why⟩ | f) | v, trace⟩ <;> rfl

theorem runCommandWithin_eq_reportTextWithin (limit : Nat) {arguments : List Text}
    {bytesOf : Option Text → Except SourceFault (List UInt8)} {a : Arguments} {t : Text}
    (hgo : Reception.ofArguments arguments = .go a)
    (hsource : (bytesOf a.source).bind textOfBytes = .ok t) :
    runCommandWithin limit arguments bytesOf = reportTextWithin limit t a.traced := by
  rw [runCommandWithin, hgo]
  simp only [hsource]

/-- How the command ends and what it prints depends on the text alone. -/
theorem ending_and_out_of_reportTextWithin (limit : Nat) (t : Text) (traced traced' : Bool) :
    (reportTextWithin limit t traced).ending = (reportTextWithin limit t traced').ending ∧
      (reportTextWithin limit t traced).out = (reportTextWithin limit t traced').out := by
  rw [reportTextWithin_eq, reportTextWithin_eq]
  rcases (readWithin limit t false).ending with (⟨position, why⟩ | f) | v <;> simp only [and_self]

/-- Under every limit, a command that gets a text reports what reading it gives.  A value is printed,
and the trace is all there is on the side; a malformed text is reported behind the trace, and nothing
is printed; nor is it when a fault ends the command.  Whether the arguments ask for a trace or not,
the command ends alike and prints the same.  Without the option, there is no trace. -/
theorem report_of_reading (limit : Nat) {arguments : List Text}
    {bytesOf : Option Text → Except SourceFault (List UInt8)} {a : Arguments} {t : Text}
    (hgo : Reception.ofArguments arguments = .go a)
    (hsource : (bytesOf a.source).bind textOfBytes = .ok t) :
    let report := runCommandWithin limit arguments bytesOf
    let trace := (readWithin limit t a.traced).trace
    (match (readWithin limit t false).ending with
      | .ok v => report = ⟨.status 0, v.pretty ++ [Code.ofChar '\n'], trace.text⟩
      | .error (.malformed position why) =>
        report = ⟨.status 1, [], trace.text ++ malformedMessage position why ++ [Code.ofChar '\n']⟩
      | .error (.fault f) => report = ⟨.fault f, [], trace.text⟩) ∧
    (∀ arguments' a', Reception.ofArguments arguments' = .go a' → a'.source = a.source →
      (runCommandWithin limit arguments' bytesOf).ending = report.ending ∧
        (runCommandWithin limit arguments' bytesOf).out = report.out) ∧
    Reception.ofArguments (Text.ofString "--debug" :: arguments) = .go { a with traced := true } ∧
    (a.traced = true ↔ ∃ w ∈ arguments.takeWhile (· != Text.ofString "--"),
      Word.ofText w = .ok (.long .debug none)) ∧
    (a.traced = false → trace = []) := by
  intro report trace
  have hreport : report = reportTextWithin limit t a.traced :=
    runCommandWithin_eq_reportTextWithin limit hgo hsource
  refine ⟨?_, fun arguments' a' hgo' hsame => ?_, ?_, Reception.traced_iff hgo, fun huntraced => ?_⟩
  · rw [hreport, reportTextWithin_eq]
    rcases (readWithin limit t false).ending with (⟨position, why⟩ | f) | v <;> rfl
  · rw [hreport, runCommandWithin_eq_reportTextWithin limit hgo' (hsame ▸ hsource)]
    exact ending_and_out_of_reportTextWithin limit t a'.traced a.traced
  · rw [Reception.ofArguments_debug, hgo]
    rfl
  · show (readWithin limit t a.traced).trace = []
    rw [huntraced, trace_readWithin_untraced]

/-- The report of a number on the standard input, without the option for the trace and with it. -/
theorem report_of_one :
    Reception.ofArguments [] = .go {} ∧ textOfBytes [0x31] = .ok (Text.ofString "1") ∧
    runCommand [] (fun _ => .ok [0x31]) = ⟨.status 0, Text.ofString "1\n", []⟩ ∧
    (runCommand [Text.ofString "--debug"] fun _ => .ok [0x31]).ending = .status 0 ∧
    (runCommand [Text.ofString "--debug"] fun _ => .ok [0x31]).out = Text.ofString "1\n" := by
  have hgo : Reception.ofArguments [] = .go {} := rfl
  have hsource : textOfBytes [0x31] = .ok (Text.ofString "1") := rfl
  have hone : Derives FitsLimit .value (Text.ofString "1") (.int 1) :=
    derives_whole (.digits (by decide) (by decide) fun d hd => by cases hd)
      (by unfold FitsLimit; decide)
  have hread : (readWithin entryLimit (Text.ofString "1") false).ending = .ok (.int 1) :=
    readWithin_of_isDocument (by decide) false hone
  obtain ⟨hreport, hsame, hdebug, -, htrace⟩ :=
    @report_of_reading entryLimit [] (fun _ => .ok [0x31]) {} _ hgo hsource
  rw [hread] at hreport
  have hpretty : (Value.int 1).pretty ++ [Code.ofChar '\n'] = Text.ofString "1\n" := by decide
  have hprinted : runCommandWithin entryLimit [] (fun _ => .ok [0x31]) =
      ⟨.status 0, Text.ofString "1\n", []⟩ := by
    rw [← hpretty]
    refine hreport.trans ?_
    rw [htrace rfl]
    rfl
  obtain ⟨hending, hout⟩ := hsame _ _ hdebug rfl
  rw [hprinted] at hending hout
  exact ⟨hgo, hsource, hprinted, hending, hout⟩

end Descent.Json

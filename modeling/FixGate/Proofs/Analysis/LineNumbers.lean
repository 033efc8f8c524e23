import FixGate.Proofs.Analysis.Pattern
import FixGate.Proofs.Source.LineCount
import FixGate.Repair

/-!
# The lines of findings in the source

The rules on single lines number the lines of a text whose line ends were unified; a repair numbers those of
the source. What a rule matched stands in the source at a place of which both numbers can be told: they
differ by the carriage returns before it that no line feed follows. With that difference taken off, the line
is there, holds what was matched, and has a window around it that holds it too.

* `Pattern.exists_of_findMatch` : a match is a part of its line
* `Placed`, `exists_placed` : the place of a finding in the text of its file
* `slice` : the window around a line of a file
* `Analyzer.line_of_pattern` : the line and the window of every finding
-/

namespace FixGate

open Act

variable {rules : List PatternRule} {rule : PatternRule} {file : Path} {text line : String} {i : Issue}
  {found : Pattern.Match} {recognise : Pattern.Recogniser} {number : Nat} {h : Host} {s t : State}

/-! ## Matches -/

/-- A match starts at a character of the line, and is what the line holds from there on, up to some point. -/
theorem Pattern.exists_of_findMatch (hfound : findMatch recognise line = some found) :
    ∃ left c rest n, line.toList = left ++ c :: rest ∧ found.text.toList = (c :: rest).take n := by
  unfold findMatch at hfound
  generalize line.toList = cs at hfound ⊢
  generalize false = afterWord at hfound
  generalize 0 = start at hfound
  induction cs generalizing afterWord start with
  | nil => cases hfound
  | cons c cs ih =>
    rw [findFrom] at hfound
    split at hfound
    · cases hfound
      exact ⟨[], c, cs, _, rfl, String.toList_ofList⟩
    · obtain ⟨left, d, rest, n, rfl, htext⟩ := ih _ _ hfound
      exact ⟨c :: left, d, rest, n, rfl, htext⟩

theorem metadata_withFingerprint (i : Issue) : i.withFingerprint.metadata = i.metadata := by
  unfold Issue.withFingerprint
  split <;> rfl

/-- A finding in a line notes what was matched. -/
theorem exists_match_of_finding (hi : rule.finding? file number line = some i) :
    ∃ found, Pattern.findMatch rule.recognise line = some found ∧
      i.metadata.lookup "matched_code" = some (.text found.text) := by
  unfold PatternRule.finding? at hi
  split_ifs at hi
  split at hi
  · cases hi
  · next found hfound =>
    cases hi
    exact ⟨found, hfound, by rw [metadata_withFingerprint]; rfl⟩

/-! ## Places -/

/-- What a finding notes as matched stands in a text after some characters, and the number of its line counts
the line feeds among them and the carriage returns that no line feed follows. The line of the text that is
told by the line feeds alone holds what was matched. -/
structure Placed (text : String) (i : Issue) (before matched : List Char) : Prop where
  noted : i.metadata.lookup "matched_code" = some (.text (String.ofList matched))
  stands : ∃ c rest, c ≠ '\n' ∧ text.toList = before ++ c :: rest ∧ matched <+: c :: rest
  number : i.line = before.count '\n' + Text.loneReturns before + 1
  line : ∃ line, (Source.linesOf text.toList)[before.count '\n']? = some line ∧ matched <:+: Source.bare line

/-- A finding in a text with its line ends unified has a place in the text as it is. -/
theorem exists_placed (hi : i ∈ patternFindings rules file (Text.unifyLineEnds text)) :
    ∃ before matched, Placed text i before matched := by
  obtain ⟨j, line, hj, -, rule, -, hfinding⟩ := mem_patternFindings_iff.1 hi
  obtain ⟨-, -, -, -, hnumber⟩ := finding?_eq_some hfinding
  obtain ⟨found, hfound, hmatched⟩ := exists_match_of_finding hfinding
  obtain ⟨left, c, rest, n, hsplit, htext⟩ := Pattern.exists_of_findMatch hfound
  unfold Text.splitFeeds at hj
  rw [List.getElem?_map, Option.map_eq_some_iff] at hj
  obtain ⟨scanned, hscanned, rfl⟩ := hj
  rw [Text.unifyLineEnds, String.toList_ofList] at hscanned
  rw [String.toList_ofList] at hsplit
  obtain ⟨before, after, hcut, hcount, feed, returns, -⟩ := Text.exists_of_unified hscanned
  subst hsplit
  rw [List.mem_append, not_or] at feed returns
  -- Nothing between the start of the scanned line and the match ends a line of either kind.
  have hfeeds : (before ++ left).count '\n' = before.count '\n' := by
    rw [List.count_append, List.count_eq_zero_of_not_mem feed.1, Nat.add_zero]
  have hreturns : Text.loneReturns (before ++ left) = Text.loneReturns before :=
    (Text.loneReturns_append (fun h => feed.1 (List.mem_of_mem_head? h)) before).trans
      (by rw [Text.loneReturns_eq_zero returns.1, Nat.add_zero])
  have hwhole : text.toList = (before ++ left) ++ (c :: rest) ++ after := by
    simp only [hcut, List.append_assoc]
  obtain ⟨p, q, hsource⟩ := Source.exists_line_of_append (before ++ left) after (List.cons_ne_nil c rest) feed.2
  have hinfix := Source.infix_bare (List.cons_ne_nil c rest) feed.2 returns.2 p q
  have hprefix : found.text.toList <+: c :: rest := htext ▸ List.take_prefix n _
  refine ⟨before ++ left, found.text.toList, by rw [String.ofList_toList, hmatched], ?_, ?_, ?_⟩
  · refine ⟨c, rest ++ after, fun h => feed.2 (h ▸ List.mem_cons_self), ?_, ?_⟩
    · rw [hwhole, List.append_assoc (before ++ left), List.cons_append]
    · exact hprefix.trans (List.prefix_append _ after)
  · rw [hfeeds, hreturns, hnumber]
    omega
  · rw [hwhole]
    exact ⟨_, hsource, hprefix.isInfix.trans hinfix⟩

/-- In a text without lone carriage returns, whatever else ends its lines, the number of a finding is the number of
its line in the source. -/
theorem Placed.number_of_no_returns {before matched : List Char} (placed : Placed text i before matched)
    (whole : Text.loneReturns text.toList = 0) : i.line = before.count '\n' + 1 := by
  obtain ⟨c, rest, hc, htext, -⟩ := placed.stands
  have hcount := Text.loneReturns_append (fun h => hc (Option.some.inj h) : (c :: rest).head? ≠ some '\n') before
  rw [← htext, whole] at hcount
  have := placed.number
  omega

/-! ## Windows -/

/-- The window around a line of a file, as the file stands. -/
def slice (ctx : Source.Context) (file : Path) (line : Int) : Act Source.Window := do
  let content ← Act.readSource file
  Act.ofExcept (Source.windowOf ctx file content line)

/-- A repair works on the window of its finding as the file stands. -/
theorem Repair.readWindow_eq (r : Repair) (i : Issue) :
    r.readWindow i = (do
      let content ← Act.readSource i.file
      let w ← slice r.context i.file i.line
      pure (content, w)) := by
  simp only [readWindow, slice, bind_assoc]

variable {before matched : List Char} {bytes : List UInt8} {ctx : Source.Context}

/-- With the lone carriage returns before a finding taken off its line, the window of that line holds what was
matched. -/
theorem Placed.exists_slice (placed : Placed (Source.decode bytes) i before matched) (steady : h.steady)
    (hc : s.disk.content file = .ok bytes) (lines_before : 0 ≤ ctx.before) (lines_after : 0 ≤ ctx.after) :
    ∃ w t, (slice ctx file (i.line - Text.loneReturns before)).outcome h s = (.ok w, t) ∧
      matched <:+: w.code.toList := by
  obtain ⟨line, hline, hinfix⟩ := placed.line
  obtain ⟨w, hw, hcode⟩ := Source.exists_windowOf lines_before lines_after file hline
  have hnumber : i.line - Text.loneReturns before = before.count '\n' + 1 := by
    rw [placed.number]
    omega
  refine ⟨w, s.steps (s.diskSteps + 1), ?_, hinfix.trans hcode⟩
  unfold slice
  rw [outcome_bind_of_ok (readSource_of_content (steady _ _) hc), hnumber, hw]
  rfl

/-- What the rules on single lines report, they find in the text of the file. -/
theorem Analyzer.exists_bytes_of_patternWith {is : List Issue}
    (analyzed : ((Analyzer.patternWith rules).analyze file).outcome h s = (.ok is, t)) :
    ∃ bytes, s.disk.content file = .ok bytes ∧ is = patternFindings rules file (scannedText bytes) := by
  unfold Analyzer.patternWith at analyzed
  simp only at analyzed
  obtain ⟨bytes, u, hread, hfound⟩ := outcome_bind_eq_ok_iff.1 analyzed
  have hbytes : s.disk.content file = .ok bytes := by
    rw [outcome_tryCatch] at hread
    split at hread
    · next b v hb =>
      obtain ⟨rfl, rfl⟩ : b = bytes ∧ v = u := by simpa using hread
      exact (content_of_readBytes hb).1
    · split at hread <;> cases hread
  obtain ⟨-, v, -, hpure⟩ := outcome_bind_eq_ok_iff.1 hfound
  rw [outcome_pure, Prod.mk.injEq, Except.ok.injEq] at hpure
  exact ⟨bytes, hbytes, hpure.1.symm⟩

/-- **The line of a finding is the line of the source, but for the lone carriage returns before it.** Whatever
bytes a file holds, what a finding of the rules on single lines notes as matched stands in the text of the file
after some characters, whose line feeds and lone carriage returns are the lines before it. With the lone ones
taken off, the number is that of a line of the source that holds what was matched, and as long as the file
stays as it is, the window around that line is found and holds it, too. -/
theorem Analyzer.line_of_pattern {is : List Issue}
    (analyzed : (Analyzer.pattern.analyze file).outcome h s = (.ok is, t)) :
    ∃ bytes, s.disk.content file = .ok bytes ∧ ∀ i ∈ is, ∃ before matched,
      Placed (Source.decode bytes) i before matched ∧
        ∀ (h' : Host) (s' : State) (ctx : Source.Context), h'.steady → s'.disk.content file = .ok bytes →
          0 ≤ ctx.before → 0 ≤ ctx.after →
          ∃ w t', (slice ctx file (i.line - Text.loneReturns before)).outcome h' s' = (.ok w, t') ∧
            matched <:+: w.code.toList := by
  unfold Analyzer.pattern at analyzed
  obtain ⟨bytes, hbytes, hfindings⟩ := exists_bytes_of_patternWith analyzed
  refine ⟨bytes, hbytes, fun i hi => ?_⟩
  rw [hfindings] at hi
  obtain ⟨before, matched, placed⟩ := exists_placed hi
  exact ⟨before, matched, placed, fun h' s' ctx steady hc hbefore hafter =>
    placed.exists_slice steady hc hbefore hafter⟩

/-- A file with a carriage return that no line feed follows, and a dangerous call after it. -/
def loneReturnFile : State where
  disk := ⟨⟨[(["a.c"], .file (Text.Utf8.encode "a\rstrcpy(d, s);\n"))]⟩, []⟩

theorem exists_finding_loneReturnFile :
    ∃ i t, (Analyzer.pattern.analyze ⟨.here, ["a.c"]⟩).outcome Host.quiet loneReturnFile = (.ok [i], t) ∧
      i.line = 2 := by
  obtain ⟨is, t, hfound, hlines⟩ := exists_outcome (h := Host.quiet) (s := loneReturnFile)
    (a := Analyzer.pattern.analyze ⟨.here, ["a.c"]⟩) (g := List.map Issue.line) (y := [2]) (by decide +kernel)
  obtain ⟨i, rfl, hline⟩ := List.map_eq_singleton_iff.1 hlines
  exact ⟨i, t, hfound, hline⟩

theorem content_loneReturnFile :
    loneReturnFile.disk.content ⟨.here, ["a.c"]⟩ = .ok (Text.Utf8.encode "a\rstrcpy(d, s);\n") := rfl

theorem decode_loneReturnFile :
    Source.decode (Text.Utf8.encode "a\rstrcpy(d, s);\n") = "a\rstrcpy(d, s);\n" := by decide +kernel

/-- The call after the lone carriage return is found, and its window too, one line further up. -/
theorem line_of_pattern_lone_return :
    ∃ i t before matched w t', (Analyzer.pattern.analyze ⟨.here, ["a.c"]⟩).outcome Host.quiet loneReturnFile =
        (.ok [i], t) ∧
      Placed "a\rstrcpy(d, s);\n" i before matched ∧
      (slice ⟨10, 20⟩ ⟨.here, ["a.c"]⟩ (i.line - Text.loneReturns before)).outcome Host.quiet loneReturnFile =
        (.ok w, t') ∧ matched <:+: w.code.toList := by
  obtain ⟨i, t, hfound, -⟩ := exists_finding_loneReturnFile
  obtain ⟨bytes, hbytes, hplaced⟩ := Analyzer.line_of_pattern hfound
  obtain rfl := Except.ok.inj (content_loneReturnFile.symm.trans hbytes)
  obtain ⟨before, matched, placed, hslice⟩ := hplaced i List.mem_cons_self
  obtain ⟨w, t', hw, hcode⟩ := hslice Host.quiet loneReturnFile ⟨10, 20⟩ Host.quiet_steady hbytes
    (by decide) (by decide)
  exact ⟨i, t, before, matched, w, t', hfound, decode_loneReturnFile ▸ placed, hw, hcode⟩

/-- The line of the call that is found after the lone carriage return is none of the source, which has one line
only: there is no window around it. -/
theorem line_of_pattern_not_in_source :
    ∃ i t, (Analyzer.pattern.analyze ⟨.here, ["a.c"]⟩).outcome Host.quiet loneReturnFile = (.ok [i], t) ∧
      i.line = 2 ∧ (Source.linesOf "a\rstrcpy(d, s);\n".toList).length = 1 ∧
      ((slice ⟨10, 20⟩ ⟨.here, ["a.c"]⟩ i.line).outcome Host.quiet loneReturnFile).1 =
        .error (.value (.noSuchLine 2 ⟨.here, ["a.c"]⟩ 1)) := by
  obtain ⟨i, t, hfound, hline⟩ := exists_finding_loneReturnFile
  refine ⟨i, t, hfound, hline, by decide, ?_⟩
  unfold slice
  rw [outcome_bind_of_ok (readSource_of_content (Host.quiet_steady _ _) content_loneReturnFile),
    decode_loneReturnFile, hline, outcome_ofExcept]
  rfl

end FixGate

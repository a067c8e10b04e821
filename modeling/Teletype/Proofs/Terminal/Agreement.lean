import Teletype.Proofs.Terminal.Reading
import Teletype.Proofs.Terminal.Running
import Teletype.Proofs.Text.Units
import Teletype.Terminal.Scripted

/-!
# A script and a descriptor

A scripted terminal hands out its lines one by one, each unit for unit; a device decodes bytes and
cuts lines from what it holds. `Device.Matches` ties the two: the device owes the text of the lines
that are left in the script, and it wrote the text of what the script recorded. Each operation keeps
them tied, as long as the lines are such that reading gives them back (`LineOptions.KeepsUnits`). So
a program that is run on both cannot tell them apart, whatever it asks and whenever, up to the point
where it asks for one line too many (`Console.RunsDry`): there both raise end of input, each in its
own words.

That no half of a pair stands alone is asked of the lines that are read, and cannot be left out:
such a half is replaced on its way to the device, and the script hands it out as it is. In a line
that is written it may stand; only the text that the device wrote has a replacement for it.
-/

namespace Teletype

open Host Text

variable {ε V σ α L : Type}

/-- The line is read back as it is: it holds no newline, and no carriage return at its end that
would be trimmed. -/
def LineOptions.Keeps (o : LineOptions) (line : String) : Prop :=
  '\n' ∉ line.toList ∧ (o.trimCarriageReturn = true → ¬ ['\r'] <:+ line.toList)

/-- The units are read back as they are: no half of a pair stands alone, there is no newline, and no
carriage return at the end that would be trimmed. -/
def LineOptions.KeepsUnits (o : LineOptions) (line : Units) : Prop :=
  line.Paired ∧ 0x0A ∉ line ∧ (o.trimCarriageReturn = true → ¬ [0x0D] <:+ line)

namespace LineOptions

variable {o : LineOptions}

theorem handedOut_of_keeps {line : String} (h : o.Keeps line) :
    String.ofList (o.handedOut line.toList) = line := by
  rw [handedOut, if_neg fun hr => h.2 hr.1 hr.2, String.ofList_toList]

/-- Units are kept if they are those of a text, and that text is kept. -/
theorem keepsUnits_iff {line : Units} :
    o.KeepsUnits line ↔ Units.ofText line.toText = line ∧ o.Keeps line.toText := by
  rw [KeepsUnits, ← Units.ofText_toText_iff]
  refine and_congr_right fun hunits => ?_
  have hnewline := Units.mem_ofText_iff (u := 0x0A) (c := '\n') rfl line.toText
  have hreturn := Units.singleton_suffix_ofText_iff (u := 0x0D) (c := '\r') rfl line.toText
  rw [hunits] at hnewline hreturn
  rw [Keeps, hnewline, hreturn]

end LineOptions

/-- The program, started in this host state with these lines to read, asks for a line when none is
left. -/
inductive Console.RunsDry : Console ε σ α L → σ → List L → Prop
  | here {next : L → Host ε σ (Console ε σ α L)} {s : σ} : RunsDry (.read next) s []
  | write {line : L} {next : Console ε σ α L} {s : σ} {lines : List L} :
      RunsDry next s lines → RunsDry (.write line next) s lines
  | read {next : L → Host ε σ (Console ε σ α L)} {s s' : σ} {line : L} {lines : List L}
      {program : Console ε σ α L} :
      next line s = .ok program s' → RunsDry program s' lines →
        RunsDry (.read next) s (line :: lines)

section

variable {s s' : σ} {line : L} {lines : List L} {program : Console ε σ α L} {e : ε}
  {reply : L → Host ε σ (Console ε σ α L)}

theorem Console.not_runsDry_sync {value : Host ε σ α} :
    ¬ (Console.sync value : Console ε σ α L).RunsDry s lines :=
  nofun

theorem Console.runsDry_write_iff :
    (Console.write line program).RunsDry s lines ↔ program.RunsDry s lines :=
  ⟨fun | .write h => h, .write⟩

theorem Console.runsDry_ask_iff_of_ok (hreply : reply line s = .ok program s') :
    (Console.ask reply).RunsDry s (line :: lines) ↔ program.RunsDry s' lines := by
  refine ⟨?_, .read hreply⟩
  rintro (_ | _ | ⟨hok, hdry⟩)
  rw [hreply] at hok
  cases hok
  exact hdry

theorem Console.not_runsDry_ask_of_error (hreply : reply line s = .error e s') :
    ¬ (Console.ask reply).RunsDry s (line :: lines) := by
  rintro (_ | _ | ⟨hok, _⟩)
  rw [hreply] at hok
  cases hok

end

/-! ## One operation at a time -/

/-- The text of a line that was written, with its newline. -/
def Device.lineText (line : Units) : String := line.toText ++ "\n"

/-- The device owes the text of the lines that are left in the script, each of which is read back as
it is, and it wrote the texts of the lines that the script recorded. -/
structure Device.Matches (o : LineOptions) (d : Device) (script : Script Units) : Prop where
  owed : ∃ text, Owes d.source d.reader text ∧
    pieces text = script.remaining.map (·.toText.toList)
  kept : ∀ line ∈ script.remaining, o.KeepsUnits line
  written : d.written = script.output.map lineText

namespace Device

variable {o : LineOptions} {d : Device} {remaining : List Units} {output : Array Units}

/-- A device that was just opened on the bytes of some lines matches the script of these lines. -/
theorem matches_of_delivers {lines : List Units} (hlines : ∀ line ∈ lines, o.KeepsUnits line)
    {source : List Delivery} (hsource : Delivers source (utf8 (ofLines (lines.map Units.toText)))) :
    Matches o { source } { remaining := lines } := by
  have hnewline : ∀ line ∈ lines.map Units.toText, '\n' ∉ line.toList := by
    intro text htext
    obtain ⟨line, hline, rfl⟩ := List.mem_map.1 htext
    exact (LineOptions.keepsUnits_iff.1 (hlines line hline)).2.1
  refine ⟨⟨_, owes_of_delivers hsource, ?_⟩, hlines, by simp⟩
  rw [pieces_ofLines hnewline, List.map_map]
  rfl

theorem Matches.readUnits {line : Units} (h : d.Matches o ⟨line :: remaining, output⟩) :
    ∃ d', Device.readUnits (V := V) o d = .ok line d' ∧ d'.Matches o ⟨remaining, output⟩ := by
  obtain ⟨text, howes, hpieces⟩ := h.owed
  obtain ⟨d', rest, hcall, howes', hrest, hwritten⟩ := outcomeOf_readLine (V := V) (o := o) howes
  obtain ⟨hunits, hkeeps⟩ := LineOptions.keepsUnits_iff.1 (h.kept line List.mem_cons_self)
  rw [hpieces, List.map_cons, List.head?_cons, LineOptions.answer,
    LineOptions.handedOut_of_keeps hkeeps] at hcall
  have hread : Device.readUnits (V := V) o d = .ok (Units.ofText line.toText) d' :=
    map_of_ok (outcomeOf_eq_ok.1 hcall)
  rw [hunits] at hread
  refine ⟨d', hread, ⟨rest, howes', ?_⟩, ?_, hwritten.trans h.written⟩
  · rw [hrest, hpieces, List.map_cons, List.tail_cons]
  · exact fun other hother => h.kept other (List.mem_cons_of_mem line hother)

theorem Matches.readUnits_nil (hend : o.endOfInput = .fail) (h : d.Matches o ⟨[], output⟩) :
    ∃ d', Device.readUnits (V := V) o d = .error (.failure .endOfInput) d' ∧
      d'.Matches o ⟨[], output⟩ := by
  obtain ⟨text, howes, hpieces⟩ := h.owed
  obtain ⟨d', rest, hcall, howes', hrest, hwritten⟩ := outcomeOf_readLine (V := V) (o := o) howes
  rw [hpieces, List.map_nil, List.head?_nil, LineOptions.answer, hend] at hcall
  refine ⟨d', map_of_error (outcomeOf_eq_error.1 hcall), ⟨rest, howes', ?_⟩, h.kept,
    hwritten.trans h.written⟩
  rw [hrest, hpieces]
  rfl

theorem Matches.writeUnits (h : d.Matches o ⟨remaining, output⟩) (line : Units) :
    ∃ d', Device.writeUnits (V := V) line d = .ok () d' ∧
      d'.Matches o ⟨remaining, output.push line⟩ := by
  obtain ⟨source, reads, written, r⟩ := d
  refine ⟨⟨source, reads, written.push (lineText line), r⟩, rfl, h.owed, h.kept, ?_⟩
  rw [Array.map_push, ← h.written]

end Device

/-! ## Whole runs -/

namespace Console

variable {o : LineOptions}

/-- How a run on a script and a run on a device end: in the same host state and still tied; and
either no line was missing, and they returned or raised the same, or one was, and each raised its
own end of input. -/
def EndTogether (o : LineOptions) (program : Console (Thrown V) σ α Units) (s : σ)
    (script : Script Units) (d : Device) : Prop :=
  ∃ s' script' d', d'.Matches o script' ∧
    ((¬ program.RunsDry s script.remaining ∧ ∃ outcome,
        outcomeOf (runOn Script.terminal.beside program) (s, script) = (outcome, s', script') ∧
        outcomeOf (runOn (Device.unitTerminal o).beside program) (s, d) = (outcome, s', d')) ∨
      (program.RunsDry s script.remaining ∧
        outcomeOf (runOn Script.terminal.beside program) (s, script) =
          (.error (.failure (.endOfInput Script.exhaustedMessage)), s', script') ∧
        outcomeOf (runOn (Device.unitTerminal o).beside program) (s, d) =
          (.error (.failure .endOfInput), s', d')))

/-- From tied states every program ends together. The induction is on the program; each of its
operations leaves the two tied, and the callbacks get the same lines in the same host state. -/
theorem endTogether_of_matches (hend : o.endOfInput = .fail)
    (program : Console (Thrown V) σ α Units) (s : σ) {script : Script Units} {d : Device}
    (h : d.Matches o script) :
    EndTogether o program s script d := by
  induction program using Console.induct generalizing s script d with
  | sync value =>
    cases hv : value s with
    | ok a s' =>
      exact ⟨s', script, d, h, .inl ⟨not_runsDry_sync, .ok a,
        outcomeOf_eq_ok.2 (runOn_sync_of_ok hv), outcomeOf_eq_ok.2 (runOn_sync_of_ok hv)⟩⟩
    | error e s' =>
      exact ⟨s', script, d, h, .inl ⟨not_runsDry_sync, .error e,
        outcomeOf_eq_error.2 (runOn_sync_of_error hv),
        outcomeOf_eq_error.2 (runOn_sync_of_error hv)⟩⟩
  | write line next ih =>
    obtain ⟨remaining, output⟩ := script
    obtain ⟨d', hcall, hmatches⟩ := h.writeUnits (V := V) line
    have hs : runOn Script.terminal.beside (.write line next) (s, ⟨remaining, output⟩) =
        runOn Script.terminal.beside next (s, ⟨remaining, output.push line⟩) :=
      runOn_write_of_ok rfl
    have hd : runOn (Device.unitTerminal o).beside (.write line next) (s, d) =
        runOn (Device.unitTerminal o).beside next (s, d') := runOn_write_of_ok hcall
    unfold EndTogether
    rw [outcomeOf_congr hs, outcomeOf_congr hd, runsDry_write_iff]
    exact ih s hmatches
  | ask next ih =>
    obtain ⟨remaining, output⟩ := script
    cases remaining with
    | nil =>
      obtain ⟨d', hcall, hmatches⟩ := h.readUnits_nil (V := V) hend
      exact ⟨s, ⟨[], output⟩, d', hmatches, .inr ⟨.here,
        outcomeOf_eq_error.2 (runOn_ask_of_error rfl),
        outcomeOf_eq_error.2 (runOn_ask_of_error hcall)⟩⟩
    | cons line remaining =>
      obtain ⟨d', hcall, hmatches⟩ := h.readUnits (V := V)
      cases hnext : next line s with
      | error e s' =>
        exact ⟨s', ⟨remaining, output⟩, d', hmatches, .inl ⟨not_runsDry_ask_of_error hnext,
          .error e, outcomeOf_eq_error.2 (runOn_ask_of_raise rfl hnext),
          outcomeOf_eq_error.2 (runOn_ask_of_raise hcall hnext)⟩⟩
      | ok program s' =>
        have hs : runOn Script.terminal.beside (.ask next) (s, ⟨line :: remaining, output⟩) =
            runOn Script.terminal.beside program (s', ⟨remaining, output⟩) :=
          runOn_ask_of_ok rfl hnext
        have hd : runOn (Device.unitTerminal o).beside (.ask next) (s, d) =
            runOn (Device.unitTerminal o).beside program (s', d') := runOn_ask_of_ok hcall hnext
        unfold EndTogether
        rw [outcomeOf_congr hs, outcomeOf_congr hd, runsDry_ask_iff_of_ok hnext]
        exact ih line s program s' hnext s' hmatches

/-- **A program cannot tell a device from a script.** The lines of the script reach the device as
bytes, cut anyhow, and each of them is one that is read back as it is. Then every program, with
whatever callbacks, leaves the same host state on both and returns or raises the same, but that end
of input is told in different words; and what the device wrote is what the script recorded, each
line with its newline and with a replacement for each half of a pair that stands alone. -/
theorem runOn_device_agrees (hend : o.endOfInput = .fail) {lines : List Units}
    (hlines : ∀ line ∈ lines,
      line.Paired ∧ 0x0A ∉ line ∧ (o.trimCarriageReturn = true → ¬ [0x0D] <:+ line))
    {source : List Delivery} (hsource : Delivers source (utf8 (ofLines (lines.map Units.toText))))
    (program : Console (Thrown V) σ α Units) (s : σ) :
    ∃ s' script d, d.written = script.output.map (fun line => line.toText ++ "\n") ∧
      ((¬ program.RunsDry s lines ∧ ∃ outcome,
          outcomeOf (runOn Script.terminal.beside program) (s, { remaining := lines }) =
            (outcome, s', script) ∧
          outcomeOf (runOn (Device.unitTerminal o).beside program) (s, { source }) =
            (outcome, s', d)) ∨
        (program.RunsDry s lines ∧
          outcomeOf (runOn Script.terminal.beside program) (s, { remaining := lines }) =
            (.error (.failure (.endOfInput Script.exhaustedMessage)), s', script) ∧
          outcomeOf (runOn (Device.unitTerminal o).beside program) (s, { source }) =
            (.error (.failure .endOfInput), s', d))) := by
  obtain ⟨s', script, d, hmatches, h⟩ :=
    endTogether_of_matches hend program s (Device.matches_of_delivers hlines hsource)
  exact ⟨s', script, d, hmatches.written, h⟩

/-- A program that notes a name, writes it with half of a pair behind it, and asks once more; there
is one line, which is cut inside its first character. -/
theorem runOn_device_agrees_dry :
    let program : Console (Thrown Empty) (List Units) Units Units := .ask fun name => do
      modify (name :: ·)
      return .write (name ++ [0xD800]) (.ask fun line => return .sync (return line))
    let source : List Delivery := [.bytes [0xC3], .bytes [0xA9, 0x0A]]
    Delivers source (utf8 (ofLines ["é"])) ∧ ∃ d, d.written = #["é\uFFFD\n"] ∧
      outcomeOf (runOn (Device.unitTerminal {}).beside program) ([], { source }) =
        (.error (.failure .endOfInput), [[0xE9]], d) := by
  intro program source
  have hbytes : utf8 (ofLines ["é"]) = [0xC3] ++ ([0xA9, 0x0A] ++ []) := by decide
  have hsource : Delivers source (utf8 (ofLines ["é"])) := by
    rw [hbytes]
    exact .chunk (by decide) (.chunk (by decide) .exhausted)
  have htext : Units.toText [0xE9, 0xD800] ++ "\n" = "é\uFFFD\n" := by decide
  have htexts : [[0xE9]].map Units.toText = ["é"] := by decide
  have hlines : ∀ line ∈ [[0xE9]], Units.Paired line ∧ 0x0A ∉ line ∧
      (({} : LineOptions).trimCarriageReturn = true → ¬ [0x0D] <:+ line) := by
    simp only [List.mem_singleton, forall_eq]
    decide
  have hdry : program.RunsDry [] [[0xE9]] := .read rfl (.write .here)
  refine ⟨hsource, ?_⟩
  obtain ⟨s', script, d, hwritten, ⟨hwet, -⟩ | ⟨-, hscript, hdevice⟩⟩ :=
    runOn_device_agrees rfl hlines (htexts ▸ hsource) program []
  · exact absurd hdry hwet
  · cases hscript
    exact ⟨d, by simpa [htext] using hwritten, hdevice⟩

/-- A program that reads one line can tell the two apart by half of a pair: the script hands it out,
and the device hands out its replacement. The line holds no newline and no carriage return. -/
theorem runOn_device_half :
    let program : Console (Thrown Empty) Unit Units Units :=
      .ask fun line => return .sync (return line)
    let line : Units := [0xD800]
    let source : List Delivery := [.bytes [0xEF, 0xBF, 0xBD, 0x0A]]
    0x0A ∉ line ∧ ¬ [0x0D] <:+ line ∧ Delivers source (utf8 (ofLines [line.toText])) ∧
      (outcomeOf (runOn Script.terminal.beside program) ((), { remaining := [line] })).1 =
        .ok [0xD800] ∧
      (outcomeOf (runOn (Device.unitTerminal {}).beside program) ((), { source })).1 =
        .ok [0xFFFD] := by
  intro program line source
  have hbytes : utf8 (ofLines [line.toText]) = [0xEF, 0xBF, 0xBD, 0x0A] ++ [] := by decide
  have hsource : Delivers source (utf8 (ofLines [line.toText])) := by
    rw [hbytes]
    exact .chunk (by decide) .exhausted
  exact ⟨by decide, by decide, hsource, rfl, rfl⟩

end Console

end Teletype

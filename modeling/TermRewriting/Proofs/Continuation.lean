import TermRewriting.Console.Loop

/-!
# Texts in several lines

A line that ends in a backslash goes on with the next one. So the lines of a conversation fall into
groups, each of some continued lines and one line that is not continued, and continued lines may be
left over at the end. The lines can be cut in one way only.

The loop goes through its lines group by group. It asks for every line of a group; behind the last one
it records the text of the group and lets the console answer it. Lines that are left over are asked
for and nothing else is done with them.

Results:
* `grouped_iff`: the groups of a list of lines.
* `Program.advances_continued`, `Program.advances_group`, `Program.advances_groups`: the calls of the
  loop on continued lines, on a group, and on several groups.
* `Program.loop_by_groups`: the calls of a whole loop.
-/
namespace TermRewriting

/-! ## Groups of lines -/

abbrev Continued (line : String) : Prop := line.toList.getLast? = some '\\'

/-- A continued line with a newline in place of its last backslash. -/
def unfinished (line : String) : String := String.ofList line.toList.dropLast ++ "\n"

theorem joinLine_waiting {line : String} (h : Continued line) (waiting : String) :
    joinLine waiting line = .waiting (waiting ++ unfinished line) := by
  rw [joinLine, if_pos h, unfinished, String.append_assoc]

/-- Lines that make up one text. -/
structure LineGroup where
  continued : List String
  last : String
  continued_of_mem : ∀ line ∈ continued, Continued line
  last_not_continued : ¬ Continued last

namespace LineGroup

def lines (g : LineGroup) : List String := g.continued ++ [g.last]

def text (g : LineGroup) : String := String.join (g.continued.map unfinished) ++ g.last

/-- The group of a line that is not continued. -/
def single (line : String) (h : ¬ Continued line) : LineGroup := ⟨[], line, List.forall_mem_nil _, h⟩

/-- The group with a continued line in front. -/
def extend (line : String) (h : Continued line) (g : LineGroup) : LineGroup :=
  ⟨line :: g.continued, g.last, List.forall_mem_cons.mpr ⟨h, g.continued_of_mem⟩,
    g.last_not_continued⟩

end LineGroup

/-- Cuts lines into groups, and gives the lines that are left over. -/
def groupLines : List String → List LineGroup × List String
  | [] => ([], [])
  | line :: rest =>
    if h : Continued line then
      match groupLines rest with
      | ([], tail) => ([], line :: tail)
      | (g :: gs, tail) => (g.extend line h :: gs, tail)
    else (.single line h :: (groupLines rest).1, (groupLines rest).2)

section
variable {line : String} {rest tail : List String} {g : LineGroup} {gs : List LineGroup}

theorem groupLines_of_last (h : ¬ Continued line) (rest : List String) :
    groupLines (line :: rest) = (.single line h :: (groupLines rest).1, (groupLines rest).2) := by
  rw [groupLines, dif_neg h]

theorem groupLines_of_tail (h : Continued line) (hrest : groupLines rest = ([], tail)) :
    groupLines (line :: rest) = ([], line :: tail) := by
  rw [groupLines, dif_pos h, hrest]

theorem groupLines_of_group (h : Continued line) (hrest : groupLines rest = (g :: gs, tail)) :
    groupLines (line :: rest) = (g.extend line h :: gs, tail) := by
  rw [groupLines, dif_pos h, hrest]

/-- Behind the lines of a group the cut goes on as if they were not there. -/
theorem groupLines_append (g : LineGroup) (rest : List String) :
    groupLines (g.lines ++ rest) = (g :: (groupLines rest).1, (groupLines rest).2) := by
  obtain ⟨continued, last, hcontinued, hlast⟩ := g
  induction continued with
  | nil => exact groupLines_of_last hlast rest
  | cons line continued ih =>
    obtain ⟨hline, hmore⟩ := List.forall_mem_cons.mp hcontinued
    exact groupLines_of_group hline (ih hmore)

theorem groupLines_of_continued (h : ∀ line ∈ tail, Continued line) :
    groupLines tail = ([], tail) := by
  induction tail with
  | nil => rfl
  | cons line tail ih =>
    obtain ⟨hline, htail⟩ := List.forall_mem_cons.mp h
    exact groupLines_of_tail hline (ih htail)

/-- The lines are those of the groups, and behind them continued lines. -/
structure Grouped (lines : List String) (gs : List LineGroup) (tail : List String) : Prop where
  lines_eq : lines = gs.flatMap LineGroup.lines ++ tail
  continued_of_mem_tail : ∀ line ∈ tail, Continued line

theorem Grouped.groupLines_eq {lines : List String} (h : Grouped lines gs tail) :
    groupLines lines = (gs, tail) := by
  obtain ⟨rfl, htail⟩ := h
  induction gs with
  | nil => exact groupLines_of_continued htail
  | cons g gs ih => rw [List.flatMap_cons, List.append_assoc, groupLines_append, ih]

theorem exists_grouped (lines : List String) : ∃ gs tail, Grouped lines gs tail := by
  induction lines with
  | nil => exact ⟨[], [], rfl, by simp⟩
  | cons line rest ih =>
    obtain ⟨gs, tail, rfl, htail⟩ := ih
    by_cases h : Continued line
    · cases gs with
      | nil => exact ⟨[], line :: tail, rfl, List.forall_mem_cons.mpr ⟨h, htail⟩⟩
      | cons g gs => exact ⟨g.extend line h :: gs, tail, rfl, htail⟩
    · exact ⟨.single line h :: gs, tail, rfl, htail⟩

/-- Lines can be cut into groups in one way. -/
theorem grouped_iff {lines : List String} :
    Grouped lines gs tail ↔ groupLines lines = (gs, tail) := by
  constructor
  · exact Grouped.groupLines_eq
  · intro h
    obtain ⟨gs', tail', h'⟩ := exists_grouped lines
    have heq := h'.groupLines_eq
    rw [h] at heq
    cases heq
    exact h'

end

/-! ## The loop on a group -/

namespace Program

/-- The calls that the loop makes on a group: a text is recorded right before it is answered. -/
def callsOn (s : Setup) (g : LineGroup) : List Call :=
  List.replicate g.lines.length .read ++ [.record g.text, .evaluate g.text] ++ s.onFile .save

section
variable {ε ρ : Type} (s : Setup) (draw : String → Except ε Unit) (last : Except ρ Unit)

/-- On these lines the loop goes from `w` to `w'`, and makes these calls on the way. -/
structure Advances (lines : List String) (calls : List Call) (w w' : Session) : Prop where
  loop_eq : ∀ rest, s.loop draw last (lines ++ rest) w = s.loop draw last rest w'
  calls_eq : w'.calls = w.calls ++ calls

variable {s draw last} in
theorem Advances.refl (w : Session) : Advances s draw last [] [] w w :=
  ⟨fun _ => rfl, (List.append_nil _).symm⟩

variable {s draw last} in
theorem Advances.trans {ls ms : List String} {cs ds : List Call} {u v w : Session}
    (h : Advances s draw last ls cs u v) (h' : Advances s draw last ms ds v w) :
    Advances s draw last (ls ++ ms) (cs ++ ds) u w := by
  refine ⟨fun rest => ?_, ?_⟩
  · rw [List.append_assoc, h.loop_eq, h'.loop_eq]
  · rw [h'.calls_eq, h.calls_eq, List.append_assoc]

/-- Continued lines are kept, with newlines for their backslashes. -/
theorem advances_continued : ∀ (lines : List String) (w : Session),
    (∀ line ∈ lines, Continued line) →
    ∃ w', Advances s draw last lines (List.replicate lines.length .read) w w' ∧
      w'.dialogue.console = w.dialogue.console ∧
      w'.dialogue.waiting = w.dialogue.waiting ++ String.join (lines.map unfinished)
  | [], w, _ => ⟨w, .refl w, rfl, by simp [String.join]⟩
  | line :: lines, w, h => by
    obtain ⟨hline, hlines⟩ := List.forall_mem_cons.mp h
    let v := (w.ask s).wait (w.dialogue.waiting ++ unfinished line)
    have hv : Advances s draw last [line] [.read] w v :=
      ⟨Setup.loop_cons_of_ok (Setup.take_of_waiting (joinLine_waiting hline _)), rfl⟩
    obtain ⟨w', hw', hconsole, hwaiting⟩ := advances_continued lines v hlines
    refine ⟨w', hv.trans hw', hconsole, ?_⟩
    rw [hwaiting, List.map_cons, String.join_cons, ← String.append_assoc]
    rfl

/-- The last line of a group completes its text. -/
theorem advances_group (g : LineGroup) {w : Session} (hw : w.dialogue.waiting = "")
    (hok : (w.dialogue.console.answer draw g.text).1 = .ok ()) :
    ∃ w', Advances s draw last g.lines (callsOn s g) w w' ∧ w'.dialogue.waiting = "" ∧
      w'.dialogue.console = (w.dialogue.console.answer draw g.text).2.console := by
  obtain ⟨v, hv, hconsole, hwaiting⟩ :=
    advances_continued s draw last g.continued w g.continued_of_mem
  rw [hw, String.empty_append] at hwaiting
  have hjoin : joinLine v.dialogue.waiting g.last = .complete g.text := by
    rw [joinLine_of_not_continued g.last_not_continued, hwaiting, LineGroup.text]
  rw [← hconsole] at hok ⊢
  let u := ((((v.ask s).wait "").record g.text).evaluate s draw g.text).2
  have hu : Advances s draw last [g.last]
      ([.read, .record g.text, .evaluate g.text] ++ s.onFile .save) v (u.save s) := by
    refine ⟨Setup.loop_cons_of_ok (Setup.take_of_complete hjoin hok), ?_⟩
    rw [Session.calls_save]
    simp [u, Session.evaluate, Session.record, Session.wait, Session.ask, Session.write,
      Session.call]
  have hcalls : callsOn s g = List.replicate g.continued.length .read ++
      ([.read, .record g.text, .evaluate g.text] ++ s.onFile .save) := by
    simp [callsOn, LineGroup.lines, List.replicate_succ']
  rw [hcalls]
  exact ⟨u.save s, hv.trans hu, (Session.save_keeps s u).2, (Session.save_keeps s u).1⟩

/-- A group leaves nothing behind that the next one would wait for. -/
theorem advances_groups : ∀ (gs : List LineGroup) (w : Session), w.dialogue.waiting = "" →
    (∀ a ∈ w.dialogue.console.answers draw (gs.map LineGroup.text), a.1 = .ok ()) →
    ∃ w', Advances s draw last (gs.flatMap LineGroup.lines) (gs.flatMap (callsOn s)) w w'
  | [], w, _, _ => ⟨w, .refl w⟩
  | g :: gs, w, hw, hok => by
    obtain ⟨hg, hgs⟩ := List.forall_mem_cons.mp hok
    obtain ⟨v, hv, hwaiting, hconsole⟩ := advances_group s draw last g hw hg
    rw [← hconsole] at hgs
    obtain ⟨w', hw'⟩ := advances_groups gs v hwaiting hgs
    exact ⟨w', hv.trans hw'⟩

end

theorem start_dialogue (s : Setup) (files : FileTree) :
    (s.start files).dialogue.waiting = "" ∧ (s.start files).dialogue.console = .initial := by
  unfold Setup.start
  cases s.options.history <;> exact ⟨rfl, rfl⟩

/-- **A conversation goes by groups.** The lines can be cut in exactly one way into groups, each of
some continued lines and a line that is not continued, and a tail of continued lines. If every answer
gets through, the loop ends with its input. The calls that it has made are: for each group in turn, a
request for every line of the group, and then, with the text of the group, an addition to the history
followed at once by an evaluation; and behind them requests for the lines of the tail, a request that
meets the end of the input, and one farewell, which is the last thing written. A run of the program on
an input with these lines leaves the files and writes what this loop does. -/
theorem loop_by_groups {ε ρ : Type} (s : Setup) (draw : String → Except ε Unit)
    (files : FileTree) (lines : List String) :
    ∃ gs tail, Grouped lines gs tail ∧
      (∀ hs rest, Grouped lines hs rest → hs = gs ∧ rest = tail) ∧
      ((∀ a ∈ Console.initial.answers draw (gs.map LineGroup.text), a.1 = .ok ()) →
        ∃ w, s.loop draw (.ok () : Except ρ Unit) lines (s.start files) = (.ok (), w) ∧
          w.calls = s.onFile .load ++ gs.flatMap (callsOn s) ++
            List.replicate tail.length .read ++ [.read, .farewell] ∧
          w.outputs.getLast? = some (.shown farewell) ∧
          ∀ input, typedLines input = lines →
            s.run files input = (w.files, .shown greeting :: w.outputs)) := by
  obtain ⟨gs, tail, hcut⟩ := exists_grouped lines
  refine ⟨gs, tail, hcut, fun hs rest h => ?_, fun hok => ?_⟩
  · exact Prod.mk.inj ((grouped_iff.mp h).symm.trans (grouped_iff.mp hcut))
  · obtain ⟨hwaiting, hconsole⟩ := start_dialogue s files
    rw [← hconsole] at hok
    obtain ⟨v, hv⟩ := advances_groups s draw (.ok () : Except ρ Unit) gs _ hwaiting hok
    obtain ⟨u, hu, -, -⟩ :=
      advances_continued s draw (.ok () : Except ρ Unit) tail v hcut.continued_of_mem_tail
    have hvu := hv.trans hu
    have hloop : s.loop draw (.ok () : Except ρ Unit) lines (s.start files) =
        (.ok (), (u.ask s).farewell) := by
      rw [hcut.lines_eq, ← List.append_nil (_ ++ tail), hvu.loop_eq, Setup.loop]
    refine ⟨(u.ask s).farewell, hloop, ?_, by simp [Session.farewell, Session.write], ?_⟩
    · have hcalls : (u.ask s).farewell.calls = u.calls ++ [.read, .farewell] := by
        simp [Session.farewell, Session.ask, Session.write, Session.call]
      rw [hcalls, hvu.calls_eq, Setup.calls_start, List.append_assoc _ _ (List.replicate _ _)]
    · intro input hinput
      subst hinput
      exact Setup.run_of_loop hloop

/-- A rule in three lines, one of them only a backslash; a line with two backslashes before an empty
one, which has an error; and two lines at the end that nothing completes. -/
theorem loop_by_groups_unfinished :
    let s : Setup := ⟨⟨some "hist", false⟩, true, none⟩
    let draw : String → Except String Unit := fun _ => .ok ()
    let lines := [":r f(x) =\\", "\\", " g(x)", "f(a)\\\\", "", "f(b)", "\\", "g(\\"]
    let texts := [":r f(x) =\n\n g(x)", "f(a)\\\n", "f(b)"]
    ∃ gs tail, Grouped lines gs tail ∧ gs.map LineGroup.text = texts ∧ tail = ["\\", "g(\\"] ∧
      (∀ a ∈ Console.initial.answers draw texts, a.1 = .ok ()) ∧
      ∃ w, s.loop draw (.ok () : Except String Unit) lines (s.start ⟨[], [[]], []⟩) = (.ok (), w) ∧
        w.calls = [.load "hist", .read, .read, .read, .record ":r f(x) =\n\n g(x)",
          .evaluate ":r f(x) =\n\n g(x)", .save "hist", .read, .read, .record "f(a)\\\n",
          .evaluate "f(a)\\\n", .save "hist", .read, .record "f(b)", .evaluate "f(b)", .save "hist",
          .read, .read, .read, .farewell] := by
  intro s draw lines texts
  obtain ⟨gs, tail, hcut, hunique, hloop⟩ :=
    loop_by_groups (ρ := String) s draw ⟨[], [[]], []⟩ lines
  obtain ⟨hgs, htail⟩ := hunique _ _ (grouped_iff.mpr rfl)
  have htexts : gs.map LineGroup.text = texts := by
    rw [← hgs]
    decide +kernel
  have hok : ∀ a ∈ Console.initial.answers draw texts, a.1 = .ok () :=
    Console.answers_eq_ok (fun _ => rfl) texts _
  obtain ⟨w, hw, hcalls, -⟩ := hloop (htexts ▸ hok)
  refine ⟨gs, tail, hcut, htexts, ?_, hok, w, hw, hcalls.trans ?_⟩
  · rw [← htail]
    decide +kernel
  · rw [← hgs, ← htail]
    decide +kernel

end Program

end TermRewriting

/-
What logs hold.

A log is read line by line, and a line feed belongs to no line.  So a text holds what its parts
hold, wherever it is cut at a line feed: the events of the parts one after the other, and the
lines that both of them skipped.

Lines that are no events may therefore stand anywhere between those that are.  Whatever they
say, the events are read back as they were written and in their order.
-/
import HeapReel.Proofs.Line
import Mathlib.Data.List.Basic

namespace HeapReel

/-- What is put into a log as one line: an event, or anything else. -/
inductive Entry where
  | event (e : Event)
  | noise (line : List Char)

namespace Entry

/-- The line. -/
def line : Entry → List Char
  | event e => e.line
  | noise line => line

/-- The numbers of an event fit words; anything else is one line, and no event. -/
def IsProper : Entry → Prop
  | event e => e.FitsWords
  | noise line => '\n' ∉ line ∧ Event.read? line = none

/-- The event, if it is one. -/
def event? : Entry → Option Event
  | event e => some e
  | noise _ => none

/-- It is no event, and not empty. -/
def IsSkipped : Entry → Bool
  | event _ => false
  | noise line => !line.isEmpty

variable {x : Entry}

theorem IsProper.not_mem_line (h : x.IsProper) : '\n' ∉ x.line := by
  cases x with
  | event e => exact fun hmem => by simpa using e.spelledBy_line.mem hmem
  | noise line => exact h.1

theorem IsProper.read?_line (h : x.IsProper) : Event.read? x.line = x.event? := by
  cases x with
  | event e => exact Event.read?_eq_some_iff.mpr ⟨e.spelledBy_line, h⟩
  | noise line => exact h.2

theorem IsProper.skips_line (h : x.IsProper) :
    (!x.line.isEmpty && (Event.read? x.line).isNone) = x.IsSkipped := by
  rw [h.read?_line]
  cases x <;> simp [event?, IsSkipped, line]

end Entry

namespace Log

/-- The text of a log with these lines, which may have a line feed at its end. -/
def text (entries : List Entry) (ended : Bool) : String :=
  String.ofList (['\n'].intercalate (entries.map Entry.line) ++ if ended then ['\n'] else [])

theorem read_ofList (cs : List Char) : read (String.ofList cs) = ofLines (cs.splitOn '\n') := by
  rw [read, String.toList_ofList]

/-! ### Cutting at a line feed -/

theorem ofLines_splitOn_append_cons (a b : List Char) :
    ofLines ((a ++ '\n' :: b).splitOn '\n')
      = ⟨(ofLines (a.splitOn '\n')).events ++ (ofLines (b.splitOn '\n')).events,
          (ofLines (a.splitOn '\n')).skipped + (ofLines (b.splitOn '\n')).skipped⟩ := by
  rw [List.splitOn_append_cons_self, ofLines_append]

theorem read_append_lineFeed (a b : String) :
    read (a ++ "\n" ++ b)
      = ⟨(read a).events ++ (read b).events, (read a).skipped + (read b).skipped⟩ := by
  have htoList : (a ++ "\n" ++ b).toList = a.toList ++ '\n' :: b.toList := by simp
  rw [read, htoList, ofLines_splitOn_append_cons]
  rfl

/-- A line feed at the end adds an empty line, which is not counted. -/
theorem ofLines_splitOn_concat (cs : List Char) :
    ofLines ((cs ++ ['\n']).splitOn '\n') = ofLines (cs.splitOn '\n') := by
  have hempty : ofLines (([] : List Char).splitOn '\n') = ⟨[], 0⟩ := by
    rw [List.splitOn_nil]
    rfl
  rw [ofLines_splitOn_append_cons, hempty, List.append_nil, Nat.add_zero]

/-! ### Lines put together -/

theorem ofLines_entries {entries : List Entry} (h : ∀ x ∈ entries, x.IsProper) :
    ofLines (entries.map Entry.line)
      = ⟨entries.filterMap Entry.event?, entries.countP Entry.IsSkipped⟩ := by
  have hevents : (entries.map Entry.line).filterMap Event.read? = entries.filterMap Entry.event? := by
    rw [List.filterMap_map]
    exact List.filterMap_congr fun x hx => (h x hx).read?_line
  have hskipped : (entries.map Entry.line).countP
        (fun line => !line.isEmpty && (Event.read? line).isNone)
      = entries.countP Entry.IsSkipped := by
    rw [List.countP_map]
    exact List.countP_congr fun x hx => by rw [Function.comp_apply, (h x hx).skips_line]
  rw [ofLines, hevents, hskipped]

theorem ofLines_splitOn_intercalate {entries : List Entry} (h : ∀ x ∈ entries, x.IsProper) :
    ofLines ((['\n'].intercalate (entries.map Entry.line)).splitOn '\n')
      = ofLines (entries.map Entry.line) := by
  -- No lines at all make an empty text, and that has one line, an empty one.
  rcases entries.eq_nil_or_concat with rfl | ⟨_, _, rfl⟩
  · rfl
  · rw [List.splitOn_intercalate '\n' ?_ (by simp)]
    intro line hline
    obtain ⟨x, hx, rfl⟩ := List.mem_map.mp hline
    exact (h x hx).not_mem_line

/--
**What was written into a log is read back, whatever stands between.**

The events come back as they were, in their order, and the lines that were skipped are those
put between them that were not empty.  It makes no difference where these lines stand, what
they say, or whether the log ends in a line feed.  More generally, a text that is cut at any of
its line feeds holds the events of both parts, the first part first, and the skipped lines of
both.
-/
theorem read_interspersed {entries : List Entry} (hentries : ∀ x ∈ entries, x.IsProper)
    (ended : Bool) :
    read (text entries ended)
        = ⟨entries.filterMap Entry.event?, entries.countP Entry.IsSkipped⟩
      ∧ ∀ a b : String, read (a ++ "\n" ++ b)
          = ⟨(read a).events ++ (read b).events, (read a).skipped + (read b).skipped⟩ := by
  have hlines := (ofLines_splitOn_intercalate hentries).trans (ofLines_entries hentries)
  refine ⟨?_, read_append_lineFeed⟩
  rw [text, read_ofList, ← hlines]
  cases ended with
  | true => exact ofLines_splitOn_concat _
  | false => rw [if_neg Bool.false_ne_true, List.append_nil]

/-- Both limits of a word, among a heading, an empty line, an event spoilt by a carriage return
and one whose size is no word. -/
def mixed : List Entry :=
  [.noise "heap log".toList, .event ⟨.alloc, -0x8000000000000000, 0x7fffffffffffffff⟩,
    .noise [], .noise "+ 1 2\r".toList, .event ⟨.free, 0x7fffffffffffffff, -0x8000000000000000⟩,
    .noise "- 1 9223372036854775808".toList]

/-- The two events come back, and three lines were skipped. -/
theorem read_interspersed_mixed :
    (∀ x ∈ mixed, x.IsProper)
      ∧ read (text mixed true)
        = ⟨[⟨.alloc, -0x8000000000000000, 0x7fffffffffffffff⟩,
            ⟨.free, 0x7fffffffffffffff, -0x8000000000000000⟩], 3⟩ := by
  have hproper : ∀ x ∈ mixed, x.IsProper := by
    simp only [mixed, List.forall_mem_cons]
    refine ⟨⟨by decide, by decide⟩, ⟨by decide, by decide⟩, ⟨by decide, by decide⟩,
      ⟨by decide, by decide⟩, ⟨by decide, by decide⟩, ⟨by decide, by decide⟩, by simp⟩
  exact ⟨hproper, (read_interspersed hproper true).1⟩

end Log

end HeapReel

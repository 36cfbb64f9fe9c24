/-
What a terminal shows, and what when it cannot be written to.

The line of a frame gives its number, the number of all frames, and the share that is done, which is
less than a hundredth of a per cent off.  For the last frame it is a hundred per cent.

A terminal is a sink, so it keeps the start of what it is sent, in however many writes a report
comes.  Every report has a text.  So a report goes over the limit exactly if the limit is below
everything sent up to and with it, and then that is what is noted.  Only a report that was written
is flushed.  One that could not be written changes nothing for the next, which is tried all the
same.
-/
import HeapReel.Proofs.Decimal
import HeapReel.Proofs.Sink
import HeapReel.Terminal

namespace HeapReel

/-! ### What a report sends -/

namespace Report

/-- The bytes of a text. -/
def encoded (text : String) : List UInt8 :=
  text.toUTF8.data.toList

/-- What a terminal is sent for a report. -/
def bytes (r : Report) : List UInt8 :=
  encoded r.text

/-- The same as it is put together: back to the first column, clear the line, and write it. -/
def commands : Report → List String
  | .frame done total => ["\x1b[1G", "\x1b[2K", line done total]
  | .complete _ => ["\nALL DONE\n"]

/-- The line of a report writes a share with two places, and two numbers. -/
theorem line_eq {done total : Nat} (hle : done ≤ total) (htotal : total < UInt64.size) :
    ∃ hundredths, Decimal.IsShare hundredths done total
      ∧ line done total
        = String.ofList (Decimal.pointed 2 hundredths) ++ s!"%\t[{done}/{total}]" := by
  obtain ⟨hundredths, hshare, htext⟩ := Decimal.percent_share hle htotal
  have hsign : String.ofList ['%'] ++ s!"\t[{done}/{total}]" = s!"%\t[{done}/{total}]" := by
    simp only [← String.append_assoc]
    rfl
  refine ⟨hundredths, hshare, ?_⟩
  rw [line, htext, String.ofList_append, String.append_assoc, hsign]

/-- **The line of a report says how many hundredths of a per cent are done.**  They are spelled with
all digits before the point that there are, and with two behind it. -/
theorem line_says {done total : Nat} (hle : done ≤ total) (htotal : total < UInt64.size) :
    ∃ hundredths whole rest, Decimal.IsShare hundredths done total
      ∧ line done total = String.ofList (whole ++ '.' :: rest) ++ s!"%\t[{done}/{total}]"
      ∧ rest.length = 2
      ∧ Numeral.Counts whole (hundredths / 100)
      ∧ Numeral.Counts rest (hundredths % 100) := by
  obtain ⟨hundredths, hshare, hline⟩ := line_eq hle htotal
  obtain ⟨whole, rest, hpointed, hlength, hwhole, hrest⟩ :=
    Decimal.pointed_eq (Nat.zero_lt_succ 1) hundredths
  rw [hpointed] at hline
  exact ⟨hundredths, whole, rest, hshare, hline, hlength, hwhole, hrest⟩

/-- The line of the last frame says that everything is done. -/
theorem line_self {total : Nat} (htotal : total < UInt64.size) :
    line total total = s!"100.00%\t[{total}/{total}]" := by
  obtain ⟨hundredths, hshare, htext⟩ := line_eq (Nat.le_refl total) htotal
  have hpointed : String.ofList (Decimal.pointed 2 10000) = "100.00" := by decide +kernel
  rw [htext, hshare.eq_of_self, hpointed]
  simp only [← String.append_assoc]
  rfl

example : line 1 3 = "33.33%\t[1/3]" := by decide +kernel

theorem encoded_append (a b : String) : encoded (a ++ b) = encoded a ++ encoded b := by
  rw [encoded, String.toUTF8, String.toByteArray_append, ByteArray.data_append,
    Array.toList_append]
  rfl

theorem flatten_commands (r : Report) : (r.commands.map encoded).flatten = r.bytes := by
  cases r with
  | frame done total =>
      have hclear : encoded clearLine = encoded "\x1b[1G" ++ encoded "\x1b[2K" := by
        decide +kernel
      rw [bytes, text, encoded_append, hclear]
      simp [commands]
  | complete total => simp [commands, bytes, text]

theorem bytes_ne_nil (r : Report) : r.bytes ≠ [] := by
  cases r with
  | frame done total =>
      have hclear : encoded clearLine ≠ [] := by decide +kernel
      rw [bytes, text, encoded_append]
      exact List.append_ne_nil_of_left_ne_nil hclear _
  | complete total =>
      have hdone : encoded "\nALL DONE\n" ≠ [] := by decide +kernel
      exact hdone

end Report

/-! ### Showing reports -/

namespace Terminal

theorem put_eq (s : Sink) (r : Report) :
    put s r = match s.write r.bytes with
      | (some error, s) => (some error, s)
      | (none, s) => s.flush := rfl

/-- Sends the pieces of a report and flushes, unless one of them failed. -/
def putEach (s : Sink) (pieces : List (List UInt8)) : Option SinkError × Sink :=
  match s.writeEach pieces with
  | (some error, s) => (some error, s)
  | (none, s) => s.flush

theorem putEach_eq (s : Sink) {r : Report} {pieces : List (List UInt8)}
    (hpieces : pieces.flatten = r.bytes) : putEach s pieces = put s r := by
  rw [putEach, Sink.writeEach_eq, hpieces, put_eq]

/-- A report to be shown, and whether flushing fails this time. -/
structure Call where
  report : Report
  flushFails : Bool

/-- What some calls send. -/
def sent (calls : List Call) : List UInt8 :=
  calls.flatMap (·.report.bytes)

/-- Shows reports one after the other: the sink afterwards, and what each call notes. -/
def showEach (s : Sink) : List Call → Sink × List (List Notice)
  | [] => (s, [])
  | c :: calls =>
      let (s, notices) := display { s with flushFails := c.flushFails } c.report
      let (s, later) := showEach s calls
      (s, notices :: later)

/-- How a call fails when `n` bytes have been sent with it: the sink is full, or else flushing
fails. -/
def failure? (limit : Option Nat) (n : Nat) (flushFails : Bool) : Option SinkError :=
  if limit.any (· < n) then some .full
  else if flushFails then some .flush
  else none

variable {s : Sink} {limit : Option Nat} {before : List UInt8}

theorem put_of_none {r : Report} (h : (s.write r.bytes).1 = none) :
    put s r = (s.write r.bytes).2.flush := by
  rw [put_eq, ← Prod.eta (s.write r.bytes), h]

/-- There is no flush after a write that failed. -/
theorem put_of_some {r : Report} {error : SinkError} (h : (s.write r.bytes).1 = some error) :
    put s r = s.write r.bytes := by
  rw [put_eq, ← Prod.eta (s.write r.bytes), h]

theorem put_of_received (h : s.Received limit before) (r : Report) :
    (put s r).1 = failure? limit (before ++ r.bytes).length s.flushFails
      ∧ (put s r).2.Received limit (before ++ r.bytes) := by
  have hfailure := h.failure_write r.bytes_ne_nil
  have hreceived := h.write r.bytes
  unfold failure?
  split at hfailure
  · rename_i hover
    rw [put_of_some hfailure, if_pos hover]
    exact ⟨hfailure, hreceived⟩
  · rename_i hfits
    rw [put_of_none hfailure, if_neg hfits]
    exact ⟨rfl, hreceived.flush⟩

/-- A call notes a failure and nothing else. -/
theorem display_eq (s : Sink) (r : Report) :
    display s r = ((put s r).2, (put s r).1.toList.map .unreported) := by
  unfold display
  rcases put s r with ⟨_ | error, s'⟩ <;> rfl

/-- **One call adds its report to what has been sent, and notes what went wrong.** -/
theorem display_of_received (h : s.Received limit before) (r : Report) :
    (display s r).1.Received limit (before ++ r.bytes)
      ∧ (display s r).2
        = (failure? limit (before ++ r.bytes).length s.flushFails).toList.map .unreported := by
  obtain ⟨hfailure, hreceived⟩ := put_of_received h r
  rw [display_eq, hfailure]
  exact ⟨hreceived, rfl⟩

/-- **Any number of calls.** -/
theorem showEach_of_received (h : s.Received limit before) (calls : List Call) :
    (showEach s calls).1.Received limit (before ++ sent calls)
      ∧ (showEach s calls).2
        = calls.mapIdx fun j c =>
          (failure? limit (before ++ sent (calls.take (j + 1))).length c.flushFails).toList.map
            .unreported := by
  induction calls generalizing s before with
  | nil => exact ⟨by simpa [sent, showEach] using h, rfl⟩
  | cons c calls ih =>
      obtain ⟨hreceived, hnoted⟩ :=
        display_of_received (h.withFlushFails c.flushFails) c.report
      obtain ⟨hlater, hnotes⟩ := ih hreceived
      have hsent : ∀ cs, sent (c :: cs) = c.report.bytes ++ sent cs := fun cs =>
        List.flatMap_cons
      rw [showEach, hsent, ← List.append_assoc]
      refine ⟨hlater, ?_⟩
      simp only [List.mapIdx_cons, hnotes, hnoted, List.take_succ_cons, hsent,
        ← List.append_assoc]
      simp [sent]

theorem flushFails_display (s : Sink) (r : Report) :
    (display s r).1.flushFails = s.flushFails := by
  rw [display_eq]
  cases hfailure : (s.write r.bytes).1 with
  | none =>
      rw [put_of_none hfailure]
      rfl
  | some error =>
      rw [put_of_some hfailure]
      rfl

theorem foldl_display (s : Sink) (rs : List Report) (notices : List Notice) :
    rs.foldl (fun (s, notices) r => ((display s r).1, notices ++ (display s r).2)) (s, notices)
      = ((showEach s (rs.map (⟨·, s.flushFails⟩))).1,
        notices ++ (showEach s (rs.map (⟨·, s.flushFails⟩))).2.flatten) := by
  induction rs generalizing s notices with
  | nil => simp [showEach]
  | cons r rs ih =>
      rw [List.foldl_cons, ih, flushFails_display, List.map_cons, showEach, List.flatten_cons,
        List.append_assoc]

/-- Where flushing always goes the same way, the calls are one run. -/
theorem showAll_eq (s : Sink) (rs : List Report) :
    showAll s rs
      = ((showEach s (rs.map (⟨·, s.flushFails⟩))).1,
        (showEach s (rs.map (⟨·, s.flushFails⟩))).2.flatten) :=
  foldl_display s rs []

/--
**What a terminal with a limit shows, and what is noted.**

The calls are any reports in any order, and each flush may fail or not.  However many of them go
wrong, all are made.  What the terminal has in the end is the start of what they send, up to its
limit.  A call notes that the disk is full exactly if the limit is below all that has been sent up
to and with it; otherwise, that flushing failed, if it did; otherwise nothing.

It makes no difference in how many writes a report is sent.  A run of reports is such a list of
calls, where flushing always fails or never.
-/
theorem shown_up_to_limit (limit : Option Nat) (calls : List Call) :
    (showEach { limit } calls).1.stored.toList = (sent calls).take (limit.getD (sent calls).length)
      ∧ (showEach { limit } calls).2.map (·.map Notice.line)
        = (calls.mapIdx fun j c =>
            if limit.any (· < (sent (calls.take (j + 1))).length) then
              ["DEBUG allocreplay::timeline::progress: failed to write progress err=disk full"]
            else if c.flushFails then
              ["DEBUG allocreplay::timeline::progress: failed to write progress err=flush failed"]
            else [])
      ∧ (∀ (s : Sink) (r : Report) (pieces : List (List UInt8)),
          pieces.flatten = (r.commands.map Report.encoded).flatten → putEach s pieces = put s r)
      ∧ ∀ (rs : List Report) (flushFails : Bool),
          showAll { limit, flushFails } rs
            = ((showEach { limit, flushFails } (rs.map (⟨·, flushFails⟩))).1,
              (showEach { limit, flushFails } (rs.map (⟨·, flushFails⟩))).2.flatten) := by
  obtain ⟨hreceived, hnotes⟩ := showEach_of_received (Sink.received_nil limit false) calls
  refine ⟨hreceived.stored_eq, ?_, fun s r pieces hpieces => ?_, fun rs flushFails => ?_⟩
  · refine List.ext_getElem? fun j => ?_
    rw [hnotes, List.getElem?_map, List.getElem?_mapIdx, List.getElem?_mapIdx, Option.map_map]
    refine congrArg (Option.map · calls[j]?) (funext fun c => ?_)
    rw [Function.comp_apply, List.nil_append, failure?]
    split
    · rfl
    · split <;> rfl
  · exact putEach_eq s (hpieces.trans r.flatten_commands)
  · exact showAll_eq { limit, flushFails } rs

/-- A limit that falls within the second command leaves the cut, and both calls note it. -/
example :
    let shown := showEach { limit := some 6 } [⟨.frame 1 2, false⟩, ⟨.complete 2, true⟩]
    shown.1.stored = #[0x1b, 0x5b, 0x31, 0x47, 0x1b, 0x5b]
      ∧ shown.2 = [[.unreported .full], [.unreported .full]] := by
  decide +kernel

end Terminal

end HeapReel

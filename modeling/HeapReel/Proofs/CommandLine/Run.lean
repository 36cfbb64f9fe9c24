/-
What the command does to the files.

A run goes through stages, and each stage that can fail comes before the output is touched,
except for the animation itself.  There is one lemma for each way a run can end, with its exit
code and the tree that it leaves: the old tree, or that with one file put where the output path
leads.  Everything else about the files follows from these two trees.

The switch for quiet is looked at only where the progress is shown, on any disk.
-/
import HeapReel.CommandLine.Run
import HeapReel.Proofs.Animation
import HeapReel.Proofs.CommandLine.Arguments
import HeapReel.Proofs.CommandLine.FileTree

namespace HeapReel

theorem Log.events_read_eq_nil_iff {text : String} :
    (Log.read text).events = [] ↔ ∀ line ∈ text.toList.splitOn '\n', Event.read? line = none :=
  List.filterMap_eq_nil_iff

namespace Replay

variable {r : Replay} {x : Extent}

/-- The replay of the events in a text. -/
def ofText (text : String) : Replay :=
  { events := (Log.read text).events }

/-- The replay is refused, or its frames are: its range has too many units, or its frames a side
that the format cannot express. -/
def Oversized (r : Replay) (x : Extent) : Prop :=
  r.settings.unitLimit < x.units ∨ 65535 < (r.scene x).size.1 ∨ 65535 < (r.scene x).size.2

/-! ### What the animation leaves -/

theorem animate_of_oversized (hx : r.extent? = some x) (h : r.Oversized x) :
    (r.animate {}).result.isOk = false ∧ (r.animate {}).sink = {} := by
  rcases Nat.lt_or_ge r.settings.unitLimit x.units with hlt | hle
  · rw [animate_of_lt hx hlt]
    exact ⟨rfl, rfl⟩
  · obtain ⟨-, hresult, hsink⟩ :=
      animate_of_too_large hx hle (h.resolve_left (Nat.not_lt.mpr hle)) {}
    rw [hresult]
    exact ⟨rfl, hsink⟩

theorem animate_of_not_oversized (hx : r.extent? = some x) (h : ¬r.Oversized x) :
    (r.animate {}).result = .ok r.events.length := by
  rw [Oversized, not_or, not_or, Nat.not_lt, Nat.not_lt, Nat.not_lt] at h
  obtain ⟨hle, hwidth, hheight⟩ := h
  exact (animate_of_hasRoom hx hle hwidth hheight {} (Sink.hasRoom_of_limit_eq_none rfl _)).2.1

end Replay

namespace CommandLine

/-- The outcome without the progress. -/
def Outcome.muted (o : Outcome) : Outcome :=
  { o with stdout := "" }

namespace Request

/-! ### The ways a request can end -/

variable {r : Request} {t made : FileTree} {explain : FileError → String} {filter : Filter}
  {e : FileError} {bytes : ByteArray} {text : String}

theorem perform_of_read_error (hread : t.read r.input = .error e) :
    ∃ stderr, (r.perform FileTree.disk explain filter).run t = ({ exit := 1, stderr }, t) := by
  simp only [perform, StateT.run_bind, FileTree.run_read, pure_bind, hread]
  exact ⟨_, rfl⟩

theorem perform_of_not_text (hread : t.read r.input = .ok bytes)
    (htext : String.fromUTF8? bytes = none) :
    ∃ stderr, (r.perform FileTree.disk explain filter).run t = ({ exit := 1, stderr }, t) := by
  simp only [perform, StateT.run_bind, FileTree.run_read, pure_bind, hread, htext]
  exact ⟨_, rfl⟩

theorem perform_of_no_events (hread : t.read r.input = .ok bytes)
    (htext : String.fromUTF8? bytes = some text) (hevents : (Log.read text).events = []) :
    ∃ stderr, (r.perform FileTree.disk explain filter).run t = ({ exit := 0, stderr }, t) := by
  simp only [perform, StateT.run_bind, FileTree.run_read, pure_bind, hread, htext, hevents]
  exact ⟨_, rfl⟩

theorem perform_of_create_error (hread : t.read r.input = .ok bytes)
    (htext : String.fromUTF8? bytes = some text) (hevents : (Log.read text).events ≠ [])
    (hcreate : t.create r.output = .error e) :
    ∃ stderr, (r.perform FileTree.disk explain filter).run t = ({ exit := 1, stderr }, t) := by
  have hsome : (Log.read text).events.isEmpty = false := by simpa using hevents
  simp only [perform, StateT.run_bind, FileTree.run_read, FileTree.run_create_of_error hcreate,
    pure_bind, hread, htext, hsome, if_neg Bool.false_ne_true]
  exact ⟨_, rfl⟩

/-- Once the output is made, it is filled with what the animation leaves, whether or not the
animation fails. -/
theorem perform_of_create (hread : t.read r.input = .ok bytes)
    (htext : String.fromUTF8? bytes = some text) (hevents : (Log.read text).events ≠ [])
    (hcreate : t.create r.output = .ok made) :
    ∃ p stdout stderr, t.locate r.output = .ok p
      ∧ (r.perform FileTree.disk explain filter).run t
        = ({ exit := if ((Replay.ofText text).animate {}).result.isOk then 0 else 1
             stdout, stderr },
            t.put p ⟨((Replay.ofText text).animate {}).sink.stored⟩) := by
  obtain ⟨p, hlocate, hmade⟩ := FileTree.exists_of_create hcreate
  have hsome : (Log.read text).events.isEmpty = false := by simpa using hevents
  simp only [perform, StateT.run_bind, FileTree.run_read, FileTree.run_create hcreate,
    FileTree.run_fill, pure_bind, hread, htext, hsome, if_neg Bool.false_ne_true]
  rw [hmade, FileTree.fill_put hlocate, ← Replay.ofText]
  cases hresult : ((Replay.ofText text).animate {}).result
  · exact ⟨p, _, _, hlocate, rfl⟩
  · exact ⟨p, _, _, hlocate, rfl⟩

/-- Whatever happens, at most the place of the output gets a file. -/
theorem tree_of_perform (r : Request) (t : FileTree) (explain : FileError → String)
    (filter : Filter) :
    ((r.perform FileTree.disk explain filter).run t).2 = t
      ∨ ∃ p bytes, t.locate r.output = .ok p
        ∧ ((r.perform FileTree.disk explain filter).run t).2 = t.put p bytes := by
  cases hread : t.read r.input with
  | error e =>
      obtain ⟨stderr, hrun⟩ := perform_of_read_error hread
      exact Or.inl (congrArg Prod.snd hrun)
  | ok bytes =>
    cases htext : String.fromUTF8? bytes with
    | none =>
        obtain ⟨stderr, hrun⟩ := perform_of_not_text hread htext
        exact Or.inl (congrArg Prod.snd hrun)
    | some text =>
      by_cases hevents : (Log.read text).events = []
      · obtain ⟨stderr, hrun⟩ := perform_of_no_events hread htext hevents
        exact Or.inl (congrArg Prod.snd hrun)
      · cases hcreate : t.create r.output with
        | error e =>
            obtain ⟨stderr, hrun⟩ := perform_of_create_error hread htext hevents hcreate
            exact Or.inl (congrArg Prod.snd hrun)
        | ok made =>
            obtain ⟨p, stdout, stderr, hlocate, hrun⟩ :=
              perform_of_create hread htext hevents hcreate
            exact Or.inr ⟨p, _, hlocate, congrArg Prod.snd hrun⟩

/-! ### Quiet or not -/

/-- On any disk, the progress is all that quiet changes. -/
theorem muted_perform {m : Type → Type} [Monad m] [LawfulMonad m] {ε : Type} (disk : Disk m ε)
    (explain : ε → String) (filter : Filter) (r : Request) (quiet : Bool) :
    Outcome.muted <$> { r with quiet }.perform disk explain filter
      = Outcome.muted <$> r.perform disk explain filter := by
  simp only [perform, map_bind]
  refine bind_congr fun read => ?_
  cases read with
  | error e => rfl
  | ok bytes =>
    dsimp only
    split
    · rfl
    · split
      · rfl
      · rw [map_bind, map_bind]
        refine bind_congr fun created => ?_
        cases created with
        | error e => rfl
        | ok _ =>
          rw [map_bind, map_bind]
          refine bind_congr fun _ => ?_
          split <;> simp only [map_pure, Outcome.muted]

/-- A tree ends the same, quiet or not, and so do the exit code and the error stream. -/
theorem run_perform_quiet {outcome : Outcome} {after : FileTree} (quiet : Bool)
    (hrun : (r.perform FileTree.disk explain filter).run t = (outcome, after)) :
    ∃ outcome', ({ r with quiet }.perform FileTree.disk explain filter).run t = (outcome', after)
      ∧ outcome'.exit = outcome.exit ∧ outcome'.stderr = outcome.stderr := by
  have hmuted := congrArg (StateT.run · t) (muted_perform FileTree.disk explain filter r quiet)
  simp only [StateT.run_map, hrun] at hmuted
  obtain ⟨houtcome, htree⟩ := Prod.mk.inj hmuted
  exact ⟨_, Prod.ext rfl htree, (Outcome.mk.inj houtcome).1, (Outcome.mk.inj houtcome).2.2⟩

end Request

/-! ### Any run -/

theorem run_of_request {m : Type → Type} [Monad m] {ε : Type} (disk : Disk m ε)
    (explain : ε → String) (wanted : Option String) {arguments : List String} {request : Request}
    (hrequest : Request.ofArguments arguments = .ok request) :
    run disk explain wanted arguments
      = request.perform disk explain (.ofRequest wanted) := by
  rw [run, hrequest]

/--
**What a run does to the files.**

The arguments ask for an output and an input, which may be the same file, on any tree.  No
folder and no file but the one that the output path leads to is different after the run.  If the
input cannot be read, or its bytes are no text, or the output cannot be made, the whole tree is
as before and the exit code is 1; if the text has no event in any line, the tree is as before
too, and the exit code is 0.  Otherwise the output holds what the animation of the text leaves,
the text being the one that was there before the run.  That is nothing, with exit code 1, if the
replay is too large, and all of the animation, with exit code 0, if it is not.

The switch for quiet can be set in front of arguments that do not have it, and asks for the same
otherwise.  Arguments that differ in that only leave the same tree, the same exit code and the
same error stream.
-/
theorem files_after_run {arguments : List String} {request : Request}
    (hrequest : Request.ofArguments arguments = .ok request) (t : FileTree)
    (explain : FileError → String) (wanted : Option String) :
    ∃ (outcome : Outcome) (after : FileTree),
      (run FileTree.disk explain wanted arguments).run t = (outcome, after)
      ∧ (∀ q, after.isFolder q = t.isFolder q)
      ∧ (∀ q, t.locate request.output ≠ .ok q → after.bytes? q = t.bytes? q)
      ∧ (∀ e, t.read request.input = .error e → outcome.exit = 1 ∧ after = t)
      ∧ (∀ bytes, t.read request.input = .ok bytes →
          (String.fromUTF8? bytes = none → outcome.exit = 1 ∧ after = t)
          ∧ ∀ text, String.fromUTF8? bytes = some text →
            ((∀ line ∈ text.toList.splitOn '\n', Event.read? line = none) →
              outcome.exit = 0 ∧ after = t)
            ∧ ((∃ line ∈ text.toList.splitOn '\n', Event.read? line ≠ none) →
              (∀ e, t.create request.output = .error e → outcome.exit = 1 ∧ after = t)
              ∧ ∀ made, t.create request.output = .ok made →
                ∃ x : Extent, x.Spans (Log.read text).events
                  ∧ ((Replay.ofText text).Oversized x →
                    outcome.exit = 1
                      ∧ after.read request.output = .ok ByteArray.empty)
                  ∧ (¬(Replay.ofText text).Oversized x →
                    outcome.exit = 0
                      ∧ ((Replay.ofText text).animate {}).result
                          = .ok (Log.read text).events.length
                      ∧ after.read request.output
                          = .ok ⟨((Replay.ofText text).animate {}).sink.stored⟩)))
      ∧ (request.quiet = false →
          Request.ofArguments ("--quiet" :: arguments) = .ok { request with quiet := true })
      ∧ ∀ arguments' quiet, Request.ofArguments arguments' = .ok { request with quiet } →
          ∃ outcome', (run FileTree.disk explain wanted arguments').run t = (outcome', after)
            ∧ outcome'.exit = outcome.exit ∧ outcome'.stderr = outcome.stderr := by
  rw [run_of_request _ explain wanted hrequest]
  have htree := request.tree_of_perform t explain (.ofRequest wanted)
  rcases hrun : (request.perform FileTree.disk explain (.ofRequest wanted)).run t
    with ⟨outcome, after⟩
  rw [hrun] at htree
  refine ⟨outcome, after, rfl, fun q => ?_, fun q hq => ?_, fun e hread => ?_,
    fun bytes hread => ⟨fun htext => ?_, fun text htext => ⟨fun hnone => ?_, fun hsome => ?_⟩⟩,
    Request.ofArguments_quiet_cons hrequest, fun arguments' quiet hrequest' => ?_⟩
  · rcases htree with hsame | ⟨p, bytes, hlocate, hput⟩
    · exact congrArg (FileTree.isFolder · q) hsame
    · exact (congrArg (FileTree.isFolder · q) hput).trans
        (FileTree.isFolder_put (FileTree.reached_of_locate hlocate) q)
  · rcases htree with hsame | ⟨p, bytes, hlocate, hput⟩
    · exact congrArg (FileTree.bytes? · q) hsame
    · refine (congrArg (FileTree.bytes? · q) hput).trans (FileTree.bytes?_put_of_ne ?_)
      rintro rfl
      exact hq hlocate
  · obtain ⟨stderr, hend⟩ := Request.perform_of_read_error hread
    cases hrun.symm.trans hend
    exact ⟨rfl, rfl⟩
  · obtain ⟨stderr, hend⟩ := Request.perform_of_not_text hread htext
    cases hrun.symm.trans hend
    exact ⟨rfl, rfl⟩
  · obtain ⟨stderr, hend⟩ :=
      Request.perform_of_no_events hread htext (Log.events_read_eq_nil_iff.mpr hnone)
    cases hrun.symm.trans hend
    exact ⟨rfl, rfl⟩
  · have hevents : (Log.read text).events ≠ [] := by
      rw [Ne, Log.events_read_eq_nil_iff]
      push Not
      exact hsome
    refine ⟨fun e hcreate => ?_, fun made hcreate => ?_⟩
    · obtain ⟨stderr, hend⟩ :=
        Request.perform_of_create_error hread htext hevents hcreate
      cases hrun.symm.trans hend
      exact ⟨rfl, rfl⟩
    · obtain ⟨p, stdout, stderr, hlocate, hend⟩ :=
        Request.perform_of_create hread htext hevents hcreate
      obtain ⟨x, hx⟩ : ∃ x, (Replay.ofText text).extent? = some x :=
        Option.ne_none_iff_exists'.mp (mt Extent.ofEvents?_eq_none_iff.mp hevents)
      cases hrun.symm.trans hend
      refine ⟨x, Extent.ofEvents?_eq_some_iff.mp hx, fun hlarge => ?_, fun hlarge => ?_⟩
      · obtain ⟨hresult, hsink⟩ := Replay.animate_of_oversized hx hlarge
        rw [hresult, hsink]
        exact ⟨rfl, FileTree.read_put hlocate⟩
      · have hresult := Replay.animate_of_not_oversized hx hlarge
        rw [hresult]
        exact ⟨rfl, rfl, FileTree.read_put hlocate⟩
  · rw [run_of_request _ explain wanted hrequest']
    exact Request.run_perform_quiet quiet hrun

/-- A log of two events. -/
def overlappingLog : String :=
  "+ 10 4\n+ 12 4\n"

/-- The log in a file, and an old animation beside it. -/
def overlappingTree : FileTree where
  files := [(["log"], overlappingLog.toUTF8), (["old"], ⟨#[0x47, 0x49, 0x46]⟩)]
  folders := []

/-- The animation takes the place of the log, quiet or not, and the old one stays. -/
theorem files_after_run_onto_log :
    Request.ofArguments ["-i", "log", "-o", "log"]
        = .ok { input := "log", output := "log", quiet := false }
      ∧ ∃ outcome after,
        (run FileTree.disk FileError.message none ["-i", "log", "-o", "log"]).run overlappingTree
            = (outcome, after)
          ∧ outcome.exit = 0
          ∧ after.read "log" = .ok ⟨(Replay.overlapping.animate {}).sink.stored⟩
          ∧ after.bytes? ["old"] = overlappingTree.bytes? ["old"]
          ∧ ∃ outcome',
            (run FileTree.disk FileError.message none ["--quiet", "-i", "log", "-o", "log"]).run
                overlappingTree = (outcome', after)
              ∧ outcome'.exit = 0 := by
  have hrequest : Request.ofArguments ["-i", "log", "-o", "log"]
      = .ok { input := "log", output := "log", quiet := false } := rfl
  have hread : overlappingTree.read "log" = .ok overlappingLog.toUTF8 := rfl
  have htext : String.fromUTF8? overlappingLog.toUTF8 = some overlappingLog := rfl
  have hreplay : Replay.ofText overlappingLog = Replay.overlapping := rfl
  have hcreate : overlappingTree.create "log"
      = .ok (overlappingTree.put ["log"] ByteArray.empty) := rfl
  obtain ⟨outcome, after, hrun, -, hothers, -, hbytes, hswitch, hquiet⟩ :=
    files_after_run hrequest overlappingTree FileError.message none
  have hlines : ∃ line ∈ overlappingLog.toList.splitOn '\n', Event.read? line ≠ none :=
    ⟨"+ 10 4".toList, by decide, by decide⟩
  obtain ⟨-, hmade⟩ := ((hbytes _ hread).2 _ htext).2 hlines
  obtain ⟨x, hx, -, hshown⟩ := hmade _ hcreate
  have hxeq : x = Replay.overlappingExtent :=
    Option.some.inj (Extent.ofEvents?_eq_some_iff.mpr hx).symm
  have hlarge : ¬(Replay.ofText overlappingLog).Oversized x := by
    rw [hreplay, hxeq, Replay.Oversized, Replay.size_overlapping]
    decide
  obtain ⟨hexit, -, hoverwritten⟩ := hshown hlarge
  obtain ⟨outcome', hrun', hexit', -⟩ := hquiet _ true (hswitch rfl)
  exact ⟨hrequest, outcome, after, hrun, hexit, hoverwritten, hothers _ (by decide),
    outcome', hrun', hexit'.trans hexit⟩

end CommandLine

end HeapReel

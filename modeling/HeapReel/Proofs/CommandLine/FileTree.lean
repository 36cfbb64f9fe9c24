/-
What making and filling a file does to a tree.

A path leads to a place, and a file is put at that place.  Putting it there changes what the
place holds and nothing else: no other file, and no folder either, since a path passes only
through folders, so those above the place were there before.  `Reached` says that, and walking
keeps it.  A tree with the same folders leads the same way, so the path still leads to the place
when the file is filled and when it is read again.
-/
import HeapReel.CommandLine.FileTree

namespace HeapReel.CommandLine.FileTree

variable {t t' : FileTree} {p q : Path} {bytes : ByteArray}

/-! ### Putting a file at a place -/

theorem lookup_filter_of_ne (hne : q ≠ p) (files : List (Path × ByteArray)) :
    (files.filter fun (place, _) => place ≠ p).lookup q = files.lookup q := by
  induction files with
  | nil => rfl
  | cons file files ih =>
      by_cases hplace : file.1 = p
      · have hother : (q == file.1) = false := beq_false_of_ne (hplace ▸ hne)
        rw [List.filter_cons_of_neg (by simpa using hplace), List.lookup_cons, hother]
        exact ih
      · rw [List.filter_cons_of_pos (by simpa using hplace), List.lookup_cons,
          List.lookup_cons, ih]

@[simp] theorem bytes?_put_self : (t.put p bytes).bytes? p = some bytes :=
  List.lookup_cons_self

theorem bytes?_put_of_ne (hne : q ≠ p) : (t.put p bytes).bytes? q = t.bytes? q := by
  have hother : (q == p) = false := beq_false_of_ne hne
  rw [bytes?, put, List.lookup_cons, hother]
  exact lookup_filter_of_ne hne t.files

/-- The last content counts. -/
theorem put_put {earlier : ByteArray} : (t.put p earlier).put p bytes = t.put p bytes := by
  simp [put]

theorem isFolder_iff :
    t.isFolder p = true ↔ (∀ name ∈ p, name = "..") ∨ p = ["/"]
      ∨ (∃ folder ∈ t.folders, p <+: folder)
      ∨ ∃ file ∈ t.files, p <+: file.1 ∧ p ≠ file.1 := by
  simp [isFolder, or_assoc]

/-- Every place above this one is a folder. -/
def Reached (t : FileTree) (p : Path) : Prop :=
  ∀ q, q <+: p → q ≠ p → t.isFolder q = true

/-- A file at a place that was reached makes no folder and takes none away. -/
theorem isFolder_put (h : t.Reached p) (q : Path) :
    (t.put p bytes).isFolder q = t.isFolder q := by
  rw [Bool.eq_iff_iff]
  constructor
  · intro hq
    rw [isFolder_iff] at hq
    rcases hq with hup | hroot | hfolder | ⟨file, hfile, hbelow, hne⟩
    · exact isFolder_iff.mpr (Or.inl hup)
    · exact isFolder_iff.mpr (Or.inr (Or.inl hroot))
    · exact isFolder_iff.mpr (Or.inr (Or.inr (Or.inl hfolder)))
    · rcases List.mem_cons.mp hfile with rfl | hold
      · exact h q hbelow hne
      · exact isFolder_iff.mpr
          (Or.inr (Or.inr (Or.inr ⟨file, (List.mem_filter.mp hold).1, hbelow, hne⟩)))
  · intro hq
    rw [isFolder_iff] at hq ⊢
    rcases hq with hup | hroot | hfolder | ⟨file, hfile, hbelow, hne⟩
    · exact Or.inl hup
    · exact Or.inr (Or.inl hroot)
    · exact Or.inr (Or.inr (Or.inl hfolder))
    · refine Or.inr (Or.inr (Or.inr ?_))
      by_cases hplace : file.1 = p
      · exact ⟨(p, bytes), List.mem_cons_self, hplace ▸ hbelow, hplace ▸ hne⟩
      · exact ⟨file, List.mem_cons_of_mem _ (List.mem_filter.mpr ⟨hfile, by simpa using hplace⟩),
          hbelow, hne⟩

/-! ### Walking to a place -/

theorem reached_nil : t.Reached [] := by
  intro q hbelow hne
  exact absurd (List.prefix_nil.mp hbelow) hne

theorem Reached.append (hp : t.isFolder p = true) (h : t.Reached p) (name : String) :
    t.Reached (p ++ [name]) := by
  intro q hbelow hne
  have hq : q <+: p := (List.prefix_concat_iff.mp hbelow).resolve_left hne
  by_cases heq : q = p
  · rw [heq]
    exact hp
  · exact h q hq heq

theorem Reached.dropLast (h : t.Reached p) : t.Reached p.dropLast := by
  intro q hbelow hne
  refine h q (hbelow.trans (List.dropLast_prefix p)) ?_
  rintro rfl
  have hlength := hbelow.length_le
  rw [List.length_dropLast] at hlength
  have hnil : q = [] := List.eq_nil_of_length_eq_zero (by omega)
  rw [hnil] at hne
  exact hne rfl

theorem Reached.next (hp : t.isFolder p = true) (h : t.Reached p) (name : String) :
    t.Reached (next p name) := by
  unfold FileTree.next
  split
  · exact h
  · split
    · split
      · exact h.append hp _
      · split
        · exact h
        · exact h.dropLast
    · exact h.append hp name

theorem reached_of_walk {names : List String} (h : t.Reached p)
    (hwalk : t.walk p names = .ok q) : t.Reached q := by
  induction names generalizing p with
  | nil =>
      cases hwalk
      exact h
  | cons name names ih =>
      rw [walk] at hwalk
      split at hwalk
      · rename_i hp
        split at hwalk
        · exact ih (h.next hp name) hwalk
        · cases hwalk
      · split at hwalk <;> cases hwalk

/-- The way to a place goes through folders only. -/
theorem walk_of_isFolder {names : List String} (hsame : ∀ q, t'.isFolder q = t.isFolder q)
    (hwalk : t.walk p names = .ok q) : t'.walk p names = .ok q := by
  induction names generalizing p with
  | nil => exact hwalk
  | cons name names ih =>
      rw [walk] at hwalk ⊢
      rw [hsame]
      split at hwalk
      · rename_i hp
        rw [if_pos hp]
        split at hwalk
        · rename_i hname
          rw [if_pos hname]
          exact ih hwalk
        · cases hwalk
      · split at hwalk <;> cases hwalk

/-! ### Paths -/

variable {path : String}

theorem locate_eq_ok_iff :
    t.locate path = .ok p
      ↔ path.utf8ByteSize ≤ pathLimit ∧ t.walk (split path).1 (split path).2 = .ok p := by
  rw [locate, split?]
  by_cases hshort : path.utf8ByteSize ≤ pathLimit
  · rw [if_pos hshort]
    exact (and_iff_right hshort).symm
  · rw [if_neg hshort]
    exact iff_of_false (by rintro ⟨⟩) fun h => hshort h.1

theorem reached_of_locate (h : t.locate path = .ok p) : t.Reached p := by
  refine reached_of_walk ?_ (locate_eq_ok_iff.mp h).2
  unfold split
  split
  · exact reached_nil.append (isFolder_iff.mpr (Or.inl (by simp))) "/"
  · exact reached_nil

theorem locate_of_isFolder (hsame : ∀ q, t'.isFolder q = t.isFolder q)
    (h : t.locate path = .ok p) : t'.locate path = .ok p := by
  obtain ⟨hshort, hwalk⟩ := locate_eq_ok_iff.mp h
  exact locate_eq_ok_iff.mpr ⟨hshort, walk_of_isFolder hsame hwalk⟩

/-- A file that can be made has a place, and the path leads to it. -/
theorem locate_of_locateNew (h : t.locateNew path = .ok p) : t.locate path = .ok p := by
  rw [locateNew, split?] at h
  by_cases hshort : path.utf8ByteSize ≤ pathLimit
  · rw [if_pos hshort] at h
    refine locate_eq_ok_iff.mpr ⟨hshort, ?_⟩
    generalize split path = start at h ⊢
    obtain ⟨start, names⟩ := start
    dsimp only [Bind.bind, Except.bind] at h
    split at h
    · exact h
    · -- What such a path leads to is a folder, if anything.
      split at h <;> cases h
  · rw [if_neg hshort] at h
    cases h

/-- Making a file puts an empty one at its place. -/
theorem exists_of_create (h : t.create path = .ok t') :
    ∃ p, t.locate path = .ok p ∧ t' = t.put p ByteArray.empty := by
  rw [create] at h
  cases hnew : t.locateNew path with
  | error e =>
      rw [hnew] at h
      cases h
  | ok p =>
      rw [hnew] at h
      change (if t.isFolder p then _ else _ : Except FileError FileTree) = .ok t' at h
      split at h
      · cases h
      · cases h
        exact ⟨p, locate_of_locateNew hnew, rfl⟩

/-- A file that was put where a path leads is found there. -/
theorem read_put (h : t.locate path = .ok p) : (t.put p bytes).read path = .ok bytes := by
  have hlocate : (t.put p bytes).locate path = .ok p :=
    locate_of_isFolder (isFolder_put (reached_of_locate h)) h
  rw [read, hlocate]
  simp only [bind, Except.bind, bytes?_put_self]
  rfl

/-- Filling the file that was made leaves its place with the bytes. -/
theorem fill_put {earlier : ByteArray} (h : t.locate path = .ok p) :
    (t.put p earlier).fill path bytes = t.put p bytes := by
  have hlocate : (t.put p earlier).locate path = .ok p :=
    locate_of_isFolder (isFolder_put (reached_of_locate h)) h
  rw [fill, hlocate]
  exact put_put

/-! ### Asking the disk -/

@[simp] theorem run_read : (disk.read path).run t = pure (t.read path, t) :=
  rfl

theorem run_create_of_error {e : FileError} (h : t.create path = .error e) :
    (disk.create path).run t = pure (.error e, t) := by
  simp only [disk, StateT.run_bind, StateT.run_get, StateT.run_pure, pure_bind, h]

theorem run_create (h : t.create path = .ok t') :
    (disk.create path).run t = pure (.ok (), t') := by
  simp only [disk, StateT.run_bind, StateT.run_get, StateT.run_set, StateT.run_pure, pure_bind, h]

@[simp] theorem run_fill : (disk.fill path bytes).run t = pure ((), t.fill path bytes) :=
  rfl

end HeapReel.CommandLine.FileTree

/-
What the states say about a disciplined program.

A program is disciplined when it allocates only what is not in use and frees only what it
allocated, as a whole.  `live?` follows such a program and keeps the blocks that are in use;
it gives up at the first event that breaks the rule.

While the rule holds, the live blocks account for all counters: no two of them share an
offset, and the net count of an offset is the number of live blocks that cover it, so zero
or one.  `Accounts` is that invariant, and an event that keeps the rule keeps it.  One more
event, of whatever kind, then moves the counters of its own range by one, and the result is
neither zero nor one exactly where it allocated what was live or freed what was not.
-/
import HeapReel.Proofs.Reel

namespace HeapReel

/-- The units from `offset` up to `offset + size`. -/
structure Block where
  offset : Int
  size : Int
  deriving Repr, DecidableEq

/-- The units that an event is about. -/
def Event.block (e : Event) : Block :=
  ⟨e.offset, e.size⟩

namespace Block

/-- The offset lies in the block. -/
def Covers (b : Block) (p : Int) : Prop :=
  b.offset ≤ p ∧ p < b.offset + b.size

instance (b : Block) (p : Int) : Decidable (b.Covers p) :=
  inferInstanceAs (Decidable (_ ∧ _))

/-- The blocks share no offset. -/
def Apart (a b : Block) : Prop :=
  min (a.offset + a.size) (b.offset + b.size) ≤ max a.offset b.offset

instance (a b : Block) : Decidable (a.Apart b) :=
  inferInstanceAs (Decidable (_ ≤ _))

theorem apart_iff {a b : Block} : a.Apart b ↔ ∀ p, ¬(a.Covers p ∧ b.Covers p) := by
  unfold Apart Covers
  constructor
  · intro h p hp
    omega
  · intro h
    have := h (max a.offset b.offset)
    omega

end Block

@[simp] theorem Event.covers_block {e : Event} {p : Int} : e.block.Covers p ↔ e.Covers p :=
  Iff.rfl

/-! ### The blocks in use -/

/-- The live blocks after one more event, if it keeps the rule: an allocation stays apart
from every live block, and a free names one of them. -/
def liveStep? (live : List Block) (e : Event) : Option (List Block) :=
  match e.action with
  | .alloc => if ∀ b ∈ live, e.block.Apart b then some (e.block :: live) else none
  | .free => if e.block ∈ live then some (live.erase e.block) else none

/-- The live blocks after some events that all keep the rule. -/
def live? (es : List Event) : Option (List Block) :=
  es.foldlM liveStep? []

/-- The offset lies in a live block. -/
def Lives (live : List Block) (p : Int) : Prop :=
  ∃ b ∈ live, b.Covers p

instance (live : List Block) (p : Int) : Decidable (Lives live p) :=
  inferInstanceAs (Decidable (∃ b ∈ live, b.Covers p))

/-- The live blocks account for all counters. -/
structure Accounts (es : List Event) (live : List Block) : Prop where
  /-- Every live block was allocated by one of the events. -/
  source : ∀ b ∈ live, ∃ e ∈ es, e.block = b
  /-- No two live blocks share an offset. -/
  apart : live.Pairwise Block.Apart
  /-- An offset counts once for every live block that covers it. -/
  count : ∀ p, netCount es p = live.countP fun b => b.Covers p

theorem accounts_nil : Accounts [] [] :=
  ⟨by simp, List.Pairwise.nil, fun _ => rfl⟩

namespace Accounts

variable {es : List Event} {live : List Block}

theorem alloc (h : Accounts es live) {e : Event} (ha : e.action = .alloc)
    (hapart : ∀ b ∈ live, e.block.Apart b) : Accounts (es ++ [e]) (e.block :: live) := by
  refine ⟨?_, List.pairwise_cons.mpr ⟨hapart, h.apart⟩, fun p => ?_⟩
  · intro b hb
    rcases List.mem_cons.mp hb with rfl | hb'
    · exact ⟨e, by simp, rfl⟩
    · obtain ⟨e', he', heq⟩ := h.source b hb'
      exact ⟨e', by simp [he'], heq⟩
  · rw [netCount_concat, h.count, ha, List.countP_cons]
    by_cases hp : e.Covers p <;> simp [hp, Action.change]

theorem free (h : Accounts es live) {e : Event} (hf : e.action = .free)
    (hmem : e.block ∈ live) : Accounts (es ++ [e]) (live.erase e.block) := by
  refine ⟨?_, h.apart.sublist List.erase_sublist, fun p => ?_⟩
  · intro b hb
    obtain ⟨e', he', heq⟩ := h.source b (List.mem_of_mem_erase hb)
    exact ⟨e', by simp [he'], heq⟩
  · rw [netCount_concat, h.count, hf, (List.perm_cons_erase hmem).countP_eq, List.countP_cons]
    by_cases hp : e.Covers p
    · simp only [Event.covers_block, hp, Action.change, decide_true, if_true]
      omega
    · simp [hp]

/-- An event that keeps the rule keeps the account. -/
theorem step (h : Accounts es live) {e : Event} {live' : List Block}
    (hstep : liveStep? live e = some live') : Accounts (es ++ [e]) live' := by
  unfold liveStep? at hstep
  split at hstep
  · rename_i ha
    obtain ⟨hapart, heq⟩ := Option.ite_none_right_eq_some.mp hstep
    rw [← Option.some.inj heq]
    exact h.alloc ha hapart
  · rename_i hf
    obtain ⟨hmem, heq⟩ := Option.ite_none_right_eq_some.mp hstep
    rw [← Option.some.inj heq]
    exact h.free hf hmem

theorem foldlM (h : Accounts es live) (fs : List Event) {live' : List Block}
    (hfs : fs.foldlM liveStep? live = some live') : Accounts (es ++ fs) live' := by
  induction fs generalizing es live with
  | nil =>
      rw [List.append_nil, ← Option.some.inj hfs]
      exact h
  | cons e fs ih =>
      rw [List.foldlM_cons] at hfs
      obtain ⟨mid, hmid, hrest⟩ := Option.bind_eq_some_iff.mp hfs
      rw [List.append_cons]
      exact ih (h.step hmid) hrest

/-- **An offset that is live counts once, and any other not at all.** -/
theorem netCount_eq (h : Accounts es live) (p : Int) :
    netCount es p = if Lives live p then 1 else 0 := by
  have hle : ∀ l : List Block, l.Pairwise Block.Apart →
      (l.countP fun b => b.Covers p) = if Lives l p then 1 else 0 := by
    intro l hl
    induction l with
    | nil => simp [Lives]
    | cons a l ih =>
        obtain ⟨ha, hl⟩ := List.pairwise_cons.mp hl
        rw [List.countP_cons, ih hl]
        by_cases hp : a.Covers p
        · have hnone : ¬Lives l p := by
            rintro ⟨b, hb, hbp⟩
            exact Block.apart_iff.mp (ha b hb) p ⟨hp, hbp⟩
          have hsome : Lives (a :: l) p := ⟨a, by simp, hp⟩
          rw [if_neg hnone, if_pos hsome]
          simp [hp]
        · have hiff : Lives (a :: l) p ↔ Lives l p := by
            simp [Lives, hp]
          simp [hiff, hp]
  rw [h.count, hle live h.apart]
  split <;> rfl

end Accounts

theorem accounts_of_live? {es : List Event} {live : List Block} (h : live? es = some live) :
    Accounts es live := by
  simpa using accounts_nil.foldlM es h

/-! ### What the states show -/

/-- One more event makes invalid what it allocates twice or frees in vain, and nothing
else. -/
theorem ofCount_add_change_eq_invalid_iff {live : List Block} {p : Int} {e : Event} :
    CellState.ofCount ((if Lives live p then 1 else 0) + if e.Covers p then e.action.change else 0)
        = .invalid
      ↔ e.Covers p ∧ (e.action = .alloc ↔ Lives live p) := by
  by_cases hp : e.Covers p <;> by_cases hl : Lives live p <;> cases ha : e.action <;>
    simp [hp, hl, Action.change, CellState.ofCount]

/-- Every offset that an event covers is that of a unit of the extent. -/
theorem Extent.Spans.exists_unit {x : Extent} {es : List Event} (h : x.Spans es) {e : Event}
    (he : e ∈ es) {p : Int} (hp : e.Covers p) : ∃ i : Nat, i < x.units ∧ x.lo + i = p := by
  have hlo := h.lo_le he
  have hstop := h.stop_le he
  obtain ⟨hle, hlt⟩ := hp
  refine ⟨(p - x.lo).toNat, ?_, ?_⟩
  · unfold Extent.units
    omega
  · omega

namespace Replay

variable {r : Replay}

/--
**While events keep the rule, states tell what is live; the next event shows where it
breaks the rule.**

After `k` events that keep the rule, a unit is in use if it is live and free if it is not.
Whatever event comes next, the units that it makes invalid are those of its range that were
live, if it allocates, and those that were not, if it frees.  Outside its range no state
changes.
-/
theorem states_of_disciplined {reel : Reel} {notices : List Notice}
    (hstart : r.start = .ok (reel, notices)) (hne : r.events ≠ []) {k : Nat}
    (hk : k ≤ r.events.length) {live : List Block}
    (hlive : live? (r.events.take k) = some live) :
    ∃ (x : Extent) (run : Run),
      x.Spans r.events
      ∧ (reel.after k).run = some run
      ∧ (∀ p, Lives live p → ∃ i : Nat, i < x.units ∧ x.lo + i = p)
      ∧ (∀ i < x.units, run.usage.state i = if Lives live (x.lo + i) then .used else .free)
      ∧ ∀ e, r.events[k]? = some e → ∃ next : Run,
          (reel.after (k + 1)).run = some next
          ∧ (∀ p, e.Covers p → ∃ i : Nat, i < x.units ∧ x.lo + i = p)
          ∧ ∀ i < x.units,
              (next.usage.state i = .invalid
                ↔ match e.action with
                  | .alloc => e.Covers (x.lo + i) ∧ Lives live (x.lo + i)
                  | .free => e.Covers (x.lo + i) ∧ ¬Lives live (x.lo + i))
              ∧ (¬e.Covers (x.lo + i) → next.usage.state i = run.usage.state i) := by
  obtain ⟨x, hx, rfl⟩ := reelAt_of_start hstart hne
  have haccounts := accounts_of_live? hlive
  have hstate : ∀ i < x.units, (r.usageAt x k).state i
      = .ofCount (if Lives live (x.lo + i) then 1 else 0) := by
    intro i hi
    rw [usageAt, Usage.state_applyAll_empty hi, haccounts.netCount_eq]
  refine ⟨x, { usage := r.usageAt x k, scene := r.scene x }, hx, ?_, ?_, ?_, ?_⟩
  · rw [after_reelAt hk]
    rfl
  · rintro p ⟨b, hb, hp⟩
    obtain ⟨e, he, rfl⟩ := haccounts.source b hb
    exact hx.exists_unit (List.mem_of_mem_take he) hp
  · intro i hi
    rw [hstate i hi]
    split <;> rfl
  · intro e he
    obtain ⟨hlt, -⟩ := List.getElem?_eq_some_iff.mp he
    refine ⟨{ usage := r.usageAt x (k + 1), scene := r.scene x }, ?_, ?_, ?_⟩
    · rw [after_reelAt hlt]
      rfl
    · intro p hp
      exact hx.exists_unit (List.mem_of_getElem? he) hp
    · intro i hi
      have hnext : (r.usageAt x (k + 1)).state i
          = .ofCount ((if Lives live (x.lo + i) then 1 else 0)
              + if e.Covers (x.lo + i) then e.action.change else 0) := by
        rw [usageAt, Usage.state_applyAll_empty hi, List.take_add_one, he, Option.toList_some,
          netCount_concat, haccounts.netCount_eq]
      constructor
      · rw [hnext, ofCount_add_change_eq_invalid_iff]
        cases e.action <;> simp
      · intro hout
        rw [hnext, if_neg hout, Int.add_zero, hstate i hi]

/-- A program that keeps the rule for three events and breaks it with the fourth, which
allocates two units that are free and two that are live. -/
def reallocating : Replay where
  events := [⟨.alloc, 0, 4⟩, ⟨.alloc, 4, 4⟩, ⟨.free, 0, 4⟩, ⟨.alloc, 2, 4⟩]

/-- The two live units of the last range become invalid, the two free ones do not. -/
theorem states_of_reallocating :
    reallocating.start = .ok (reallocating.reelAt ⟨0, 8⟩ 0,
        [.started 4 0 (Grid.ofUnits 8 reallocating.settings)])
      ∧ reallocating.events ≠ []
      ∧ 3 ≤ reallocating.events.length
      ∧ live? (reallocating.events.take 3) = some [⟨4, 4⟩]
      ∧ ∃ run next : Run,
          ((reallocating.reelAt ⟨0, 8⟩ 0).after 3).run = some run
          ∧ ((reallocating.reelAt ⟨0, 8⟩ 0).after 4).run = some next
          ∧ run.usage.state 2 = .free ∧ run.usage.state 4 = .used
          ∧ next.usage.state 2 ≠ .invalid ∧ next.usage.state 4 = .invalid
          ∧ next.usage.state 7 = run.usage.state 7 := by
  have hstart := start_of_extent (r := reallocating) (x := ⟨0, 8⟩) rfl (by decide)
  have hne : reallocating.events ≠ [] := by decide
  have hk : 3 ≤ reallocating.events.length := by decide
  have hlive : live? (reallocating.events.take 3) = some [⟨4, 4⟩] := by decide
  refine ⟨hstart, hne, hk, hlive, ?_⟩
  obtain ⟨x, run, hx, hrun, -, hstates, hnext⟩ := states_of_disciplined hstart hne hk hlive
  have hxeq : x = ⟨0, 8⟩ := Option.some.inj (Extent.ofEvents?_eq_some_iff.mpr hx).symm
  subst hxeq
  obtain ⟨next, hafter, -, hevent⟩ := hnext ⟨.alloc, 2, 4⟩ rfl
  refine ⟨run, next, hrun, hafter, hstates 2 (by decide), hstates 4 (by decide), ?_, ?_, ?_⟩
  · rw [Ne, (hevent 2 (by decide)).1]
    decide
  · rw [(hevent 4 (by decide)).1]
    decide
  · exact (hevent 7 (by decide)).2 (by decide)

end Replay

end HeapReel

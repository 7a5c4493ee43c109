import StringSlots.Proofs.Cbor.Item

/-!
# Items cut short

A reader is prefix-stable when bytes that arrive behind the item it took make no difference to what
it took. Stability goes through the ways in which readers are put together: one reader after another
(`PrefixStable.bind`), a number of steps, steps until a break. Hence all readers of items are
stable, also on items of open length and on items that are passed over.

A stable reader that takes a written form takes no part of it, so a form that was cut short is
always noticed (`PrefixStable.eq_none_of_cut`).
-/

namespace StringSlots.Cbor

variable {α β σ : Type}

/-- More bytes behind an item make no difference to what a reader takes. -/
def PrefixStable (read : Bytes → Option (α × Bytes)) : Prop :=
  ∀ ⦃bytes value rest⦄, read bytes = some (value, rest) →
    ∀ more, read (bytes ++ more) = some (value, rest ++ more)

namespace PrefixStable

variable {read : Bytes → Option (α × Bytes)} {next : α × Bytes → Option (β × Bytes)}

/-- What is written is not read from less than all of it. -/
theorem eq_none_of_cut {written cut : Bytes} {value : α} (stable : PrefixStable read)
    (takes : Takes read written value) (part : cut <+: written) (proper : cut ≠ written) :
    read cut = none := by
  obtain ⟨missing, rfl⟩ := part
  cases taken : read cut with
  | none => rfl
  | some result =>
      -- by stability the missing bytes are left behind, but the written form leaves nothing
      obtain ⟨other, rest⟩ := result
      have whole := takes []
      rw [List.append_nil, stable taken missing] at whole
      have left : rest ++ missing = [] := (Prod.mk.inj (Option.some.inj whole)).2
      rw [(List.append_eq_nil_iff.1 left).2, List.append_nil] at proper
      exact absurd rfl proper

/-! ## Readers put together -/

theorem pure (value : α) : PrefixStable fun bytes => some (value, bytes) := by
  intro bytes other rest taken more
  obtain ⟨rfl, rfl⟩ := Prod.mk.inj (Option.some.inj taken)
  rfl

theorem fail : PrefixStable fun _ => (none : Option (α × Bytes)) := by
  intro bytes value rest taken
  cases taken

theorem bind (stable : PrefixStable read)
    (next_stable : ∀ value, PrefixStable fun bytes => next (value, bytes)) :
    PrefixStable fun bytes => read bytes >>= next := by
  intro bytes result rest taken more
  obtain ⟨⟨value, behind⟩, first, second⟩ := Option.bind_eq_some_iff.1 taken
  show (read (bytes ++ more)).bind next = _
  rw [stable first more, Option.bind_some]
  exact next_stable value second more

/-- A value that is not read from the bytes. -/
theorem bind_option {next : α → Bytes → Option (β × Bytes)} (found : Option α)
    (next_stable : ∀ value, PrefixStable (next value)) :
    PrefixStable fun bytes => found >>= fun value => next value bytes := by
  cases found with
  | none => exact fail
  | some value => exact next_stable value

theorem map (stable : PrefixStable read) (f : α → β) :
    PrefixStable fun bytes => (read bytes).map fun taken => (f taken.1, taken.2) := by
  intro bytes result rest taken more
  obtain ⟨⟨value, behind⟩, first, same⟩ := Option.map_eq_some_iff.1 taken
  obtain ⟨rfl, rfl⟩ := Prod.mk.inj same
  show (read (bytes ++ more)).map _ = _
  rw [stable first more]
  rfl

theorem ite {condition : Prop} [Decidable condition] {other : Bytes → Option (α × Bytes)}
    (stable : PrefixStable read) (other_stable : PrefixStable other) :
    PrefixStable fun bytes => if condition then read bytes else other bytes := by
  split
  · exact stable
  · exact other_stable

end PrefixStable

open PrefixStable

/-! ## Heads -/

theorem prefixStable_splitExact (n : Nat) : PrefixStable (splitExact n) := by
  intro bytes first rest taken more
  obtain ⟨rfl, length⟩ := splitExact_eq_some_iff.1 taken
  exact splitExact_eq_some_iff.2 ⟨List.append_assoc first rest more, length⟩

theorem prefixStable_readBigEndian (k : Nat) : PrefixStable (readBigEndian k) :=
  (prefixStable_splitExact k).map fun digits => littleEndianValue digits.reverse

theorem prefixStable_readArgument (info : Nat) : PrefixStable (readArgument info) := by
  have counted (k : Nat) : PrefixStable fun bytes =>
      (readBigEndian k bytes).map fun read => (Argument.count read.1, read.2) :=
    (prefixStable_readBigEndian k).map _
  unfold readArgument
  refine (pure _).ite ?_
  split
  · exact counted 1
  · exact counted 2
  · exact counted 4
  · exact counted 8
  · exact pure _
  · exact fail

theorem prefixStable_readHead (major : Major) : PrefixStable (readHead major) := by
  intro bytes argument rest taken more
  cases bytes with
  | nil => cases taken
  | cons byte behind =>
      rw [readHead] at taken
      rw [List.cons_append, readHead]
      split at taken
      · next same =>
        rw [if_pos same]
        exact prefixStable_readArgument _ taken more
      · cases taken

theorem prefixStable_readCount (major : Major) : PrefixStable (readCount major) := by
  intro bytes n rest taken more
  rw [readCount] at taken
  split at taken
  · next count behind head =>
    obtain ⟨rfl, rfl⟩ := Prod.mk.inj (Option.some.inj taken)
    rw [readCount, prefixStable_readHead major head more]
  · cases taken

theorem prefixStable_readNat : PrefixStable readNat :=
  prefixStable_readCount .unsigned

/-! ## Steps in a row -/

section Steps

variable {step : σ → Bytes → Option (σ × Bytes)} (stable : ∀ state, PrefixStable (step state))
include stable

theorem prefixStable_times (n : Nat) (state : σ) : PrefixStable (times step n state) := by
  induction n generalizing state with
  | zero => exact pure state
  | succ n ih =>
      intro bytes result rest taken more
      rw [times] at taken
      split at taken
      · cases taken
      · next middle behind first =>
        rw [times, stable state first more]
        exact ih middle taken more

variable (progress : ∀ state, step state [] = none)
include progress

/-- Without bytes there is neither a break nor a step, so each turn sees the first byte. -/
theorem untilBreakWithin_append {budget : Bytes} {state result : σ} {bytes rest : Bytes}
    (taken : untilBreakWithin step budget state bytes = some (result, rest)) (extra more : Bytes) :
    untilBreakWithin step (budget ++ extra) state (bytes ++ more) =
      some (result, rest ++ more) := by
  induction budget generalizing state bytes with
  | nil => cases taken
  | cons turn budget ih =>
      cases bytes with
      | nil =>
          rw [untilBreakWithin, if_neg (by simp), progress state] at taken
          cases taken
      | cons byte behind =>
          rw [untilBreakWithin] at taken
          rw [List.cons_append, List.cons_append, untilBreakWithin]
          split at taken
          · next ended =>
            obtain ⟨rfl, rfl⟩ := Prod.mk.inj (Option.some.inj taken)
            exact if_pos ended
          · next open_still =>
            rw [if_neg (by exact open_still)]
            split at taken
            · cases taken
            · next middle left first =>
              rw [← List.cons_append, stable state first more]
              exact ih taken

theorem prefixStable_untilBreak (state : σ) : PrefixStable (untilBreak step state) := by
  intro bytes result rest taken more
  exact untilBreakWithin_append stable progress taken more more

theorem prefixStable_repeated (argument : Argument) (state : σ) :
    PrefixStable (argument.repeated step state) := by
  cases argument with
  | count n => exact prefixStable_times stable n state
  | indefinite => exact prefixStable_untilBreak stable progress state

end Steps

/-! ## Texts -/

theorem prefixStable_readChunk (before : Bytes) : PrefixStable (readChunk before) := by
  unfold readChunk
  refine (prefixStable_readCount .text).bind ?_
  intro length
  exact (prefixStable_splitExact length).bind fun chunk => pure _

theorem prefixStable_readText : PrefixStable readText := by
  have decoded (content : Bytes) :
      PrefixStable fun rest => ofUtf8? content >>= fun text => some (text, rest) :=
    bind_option (ofUtf8? content) pure
  unfold readText
  refine (prefixStable_readHead .text).bind ?_
  intro argument
  cases argument with
  | count length => exact (prefixStable_splitExact length).bind decoded
  | indefinite =>
      have chunks := prefixStable_untilBreak prefixStable_readChunk (fun _ => rfl) []
      exact (chunks.map List.reverse).bind decoded

/-! ## Items that are passed over -/

/-- More bytes behind an item make no difference to where it ends. -/
def SkipStable (skip : Bytes → Option Bytes) : Prop :=
  ∀ ⦃bytes rest⦄, skip bytes = some rest → ∀ more, skip (bytes ++ more) = some (rest ++ more)

theorem PrefixStable.skip {read : Bytes → Option (α × Bytes)} (stable : PrefixStable read) :
    SkipStable fun bytes => (read bytes).map (·.2) := by
  intro bytes rest skipped more
  obtain ⟨⟨value, behind⟩, taken, rfl⟩ := Option.map_eq_some_iff.1 skipped
  show (read (bytes ++ more)).map _ = _
  rw [stable taken more]
  rfl

namespace SkipStable

variable {skip : Bytes → Option Bytes}

theorem bind {next : Bytes → Option (α × Bytes)} (stable : SkipStable skip)
    (next_stable : PrefixStable next) : PrefixStable fun bytes => skip bytes >>= next := by
  intro bytes value rest taken more
  obtain ⟨behind, skipped, second⟩ := Option.bind_eq_some_iff.1 taken
  show (skip (bytes ++ more)).bind next = _
  rw [stable skipped more, Option.bind_some]
  exact next_stable second more

theorem read_unit (stable : SkipStable skip) :
    PrefixStable fun bytes => (skip bytes).map ((), ·) := by
  intro bytes done rest taken more
  obtain ⟨behind, skipped, same⟩ := Option.map_eq_some_iff.1 taken
  cases same
  show (skip (bytes ++ more)).map _ = _
  rw [stable skipped more]
  rfl

end SkipStable

theorem skipStable_skipSimple (info : Nat) : SkipStable (skipSimple info) := by
  have none_behind : SkipStable some := by
    intro bytes rest skipped more
    cases skipped
    rfl
  unfold skipSimple
  split
  · exact none_behind
  · exact none_behind
  · exact none_behind
  · exact none_behind
  · exact (prefixStable_splitExact 2).skip
  · exact (prefixStable_splitExact 4).skip
  · exact (prefixStable_splitExact 8).skip
  · intro bytes rest skipped
    cases skipped

theorem skipItem_nil (depth : Nat) : skipItem depth [] = none := by
  cases depth <;> rfl

/-- By induction on the depth: an item that nests others is skipped by skipping these. -/
theorem skipStable_skipItem (depth : Nat) : SkipStable (skipItem depth) := by
  induction depth with
  | zero =>
      intro bytes rest skipped
      cases skipped
  | succ depth ih =>
      have one (_ : Unit) := ih.read_unit
      have two (_ : Unit) := ih.bind (ih.bind (pure ()))
      have one_progress (_ : Unit) : (skipItem depth []).map ((), ·) = none := by
        rw [skipItem_nil]
        rfl
      have two_progress (_ : Unit) :
          (skipItem depth [] >>= fun bytes => skipItem depth bytes >>= fun bytes =>
            some ((), bytes)) = none := by
        rw [skipItem_nil]
        rfl
      intro bytes rest skipped more
      cases bytes with
      | nil => cases skipped
      | cons byte behind =>
          simp only [List.cons_append, skipItem] at skipped ⊢
          by_cases simple : Major.ofByte byte = .simple
          · simp only [simple] at skipped ⊢
            exact skipStable_skipSimple _ skipped more
          · cases head : readArgument (headInfo byte) behind with
            | none =>
                -- all other items need an argument
                rw [head] at skipped
                split at skipped <;> simp_all
            | some taken =>
                obtain ⟨argument, left⟩ := taken
                rw [head] at skipped
                rw [prefixStable_readArgument _ head more]
                cases major : Major.ofByte byte with
                | simple => exact absurd major simple
                | unsigned | negative =>
                    rw [major] at skipped
                    cases argument <;> cases skipped
                    rfl
                | bytes | text =>
                    rw [major] at skipped
                    cases argument with
                    | count length => exact (prefixStable_splitExact length).skip skipped more
                    | indefinite =>
                        exact (prefixStable_untilBreak one one_progress ()).skip skipped more
                | array =>
                    rw [major] at skipped
                    exact (prefixStable_repeated one one_progress argument ()).skip skipped more
                | map =>
                    rw [major] at skipped
                    exact (prefixStable_repeated two two_progress argument ()).skip skipped more
                | tag =>
                    rw [major] at skipped
                    cases argument with
                    | count => exact ih skipped more
                    | indefinite => cases skipped

end StringSlots.Cbor

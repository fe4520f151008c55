import StompRelay.Proofs.Steps
import StompRelay.Relay.History
/-!
# Numbers of sessions

A session draws its number when it is opened and keeps it. As the counter only goes up, no two
sessions of a run have the same number, whatever ids and places they have: a number that somebody
remembers stands for one session, now and later.

## Main definitions

* `Relay.SameNumbers` — a step neither changes a number nor draws one
* `Relay.HadNumber` — a session had a number at some moment of a history

## Main results

* `Relay.MoveStep.epochs_grow` — a step changes no number, and draws the next one at most
* `Relay.numbered_of_run` — in every run every session has a number of its own
* `Relay.Path.moveStep` — every move of a run is one of the listed steps
* `Relay.HadNumber.epoch?_eq` — a session has its number for good
-/

namespace StompRelay.Relay

variable {setup : Setup} {busCapacity : Nat} {s t u : Relay} {h : History} {m : Move} {e : Place}
  {i : CallId} {c : Call} {x : Session}

/-! ### What one step does to the numbers -/

/-- The same numbers are given out, and the same one is next. -/
def SameNumbers (s t : Relay) : Prop := t.epochs = s.epochs ∧ t.nextEpoch = s.nextEpoch

namespace SameNumbers

theorem refl (s : Relay) : SameNumbers s s := ⟨rfl, rfl⟩

theorem trans (first : SameNumbers s t) (second : SameNumbers t u) : SameNumbers s u :=
  ⟨second.1.trans first.1, second.2.trans first.2⟩

/-- The number of a session is not among what changes in it. -/
theorem modifySession {f : Session → Session}
    (hf : ∀ x, s.sessions[e]? = some x → (f x).epoch = x.epoch) :
    SameNumbers s (s.modifySession e f) := by
  refine ⟨List.ext_getElem? fun e' => ?_, rfl⟩
  rw [epochs, epochs, List.getElem?_map, List.getElem?_map, getElem?_modifySession]
  split
  · rename_i he
    subst he
    rw [Option.map_map]
    exact Option.map_congr fun x hx => hf x hx
  · rfl

/-- Bytes go into the connection of a session that was there. -/
theorem push {y : Session} {rest rest' : Bytes} (hx : s.sessions[e]? = some x)
    (hp : x.push? rest = some (rest', y)) : SameNumbers s (s.modifySession e fun _ => y) := by
  obtain ⟨bs, -, hy⟩ := Session.eq_of_push? hp
  refine .modifySession fun x' hx' => ?_
  obtain rfl := Option.some.inj (hx'.symm.trans hx)
  rw [hy]

theorem setReader (r : Reader) : SameNumbers s (s.setReader e r) :=
  modifySession fun _ _ => rfl

theorem unregister (id : SessionId) : SameNumbers s (s.unregister id e) :=
  modifySession (f := Session.cancel) fun _ _ => rfl

theorem cancelAll (es : List Place) : SameNumbers s (s.cancelAll es) := by
  induction es generalizing s with
  | nil => exact refl s
  | cons e es ih => exact (modifySession (f := Session.cancel) fun _ _ => rfl).trans ih

end SameNumbers

theorem ReaderStep.sameNumbers (step : ReaderStep setup s e x t) : SameNumbers s t := by
  cases step with
  | stop | read | overflow | reject | skip | offer | lose | fail | abandon | post | hush | announce
  | quit => exact .setReader _
  | fetch => exact .modifySession fun _ _ => rfl
  | unregister => exact (SameNumbers.unregister _).trans (.setReader _)
  | shut => exact .modifySession fun y _ => y.epoch_close

theorem CallStep.sameNumbers (step : CallStep setup s i c t) : SameNumbers s t := by
  cases step with
  | reject => exact .setReader _
  | start => exact .setReader _
  | attach | queue | bounce | cut | accept | finish | snap => exact .modifySession fun _ _ => rfl
  | push _ hx _ _ hp => exact .push hx hp
  | complete _ hx _ _ hp => exact (SameNumbers.push hx hp).trans (.modifySession fun _ _ => rfl)
  | condemn | remove => exact .unregister c.purpose.id
  | clear => exact .cancelAll _
  | close => exact .modifySession fun y _ => y.epoch_close
  | _ => exact .refl s

/-- A step changes no number, and draws the next one at most. -/
theorem MoveStep.epochs_grow (step : MoveStep setup s m t) :
    SameNumbers s t
      ∨ t.epochs = s.epochs ++ [s.nextEpoch] ∧ t.nextEpoch = s.nextEpoch + 1 := by
  cases step with
  | reader _ step => exact .inl step.sameNumbers
  | call _ step => exact .inl step.sameNumbers
  | attach | connected => exact .inr ⟨List.map_append, rfl⟩
  | brokerPut | brokerTake | brokerDrop | breakInput | letGo =>
    exact .inl (.modifySession fun _ _ => rfl)
  | _ => exact .inl (.refl s)

/-- A step leaves a session its number. -/
theorem MoveStep.epoch?_eq {n : Epoch} (step : MoveStep setup s m t) (he : s.epoch? e = some n) :
    t.epoch? e = some n := by
  rw [epoch?_eq_getElem?] at he ⊢
  rcases step.epochs_grow with ⟨heq, -⟩ | ⟨heq, -⟩
  · rwa [heq]
  · rwa [heq, List.getElem?_append_left (List.getElem?_eq_some_iff.mp he).1]

/-! ### Runs -/

theorem Numbered.empty : (Relay.empty busCapacity).Numbered where
  nodup := List.nodup_nil
  lt n hn := by cases hn

/-- Every session keeps a number of its own. -/
theorem MoveStep.numbered (hn : s.Numbered) (step : MoveStep setup s m t) : t.Numbered := by
  rcases step.epochs_grow with ⟨heq, hnext⟩ | ⟨heq, hnext⟩
  · exact ⟨heq ▸ hn.nodup, heq ▸ hnext ▸ hn.lt⟩
  · refine ⟨?_, fun n hmem => ?_⟩
    · -- the number that is drawn is above all that were
      rw [heq]
      refine List.nodup_append.mpr ⟨hn.nodup, List.pairwise_singleton _ _, ?_⟩
      intro n hold n' hnew
      rw [List.mem_singleton.mp hnew]
      exact Nat.ne_of_lt (hn.lt n hold)
    · rw [heq] at hmem
      rw [hnext]
      rcases List.mem_append.mp hmem with hold | hnew
      · exact Nat.lt_succ_of_lt (hn.lt n hold)
      · rw [List.mem_singleton.mp hnew]
        exact Nat.lt_succ_self _

/-- What the relay does by itself leaves every session a number of its own. -/
theorem Numbered.of_step? {a : Actor} (hn : s.Numbered) (h : s.step? setup a = some t) :
    t.Numbered :=
  (moveStep_of_move (m := .act a) hn h).numbered hn

theorem Path.numbered (path : Path setup s h t) (hn : s.Numbered) : t.Numbered := by
  induction path with
  | nil => exact hn
  | snoc _ hm ih => exact (moveStep_of_move ih hm).numbered ih

/-- In every run every session has a number of its own. -/
theorem numbered_of_run (run : Run setup busCapacity h s) : s.Numbered := run.numbered .empty

/-- A session had a number at some moment of a history. -/
def HadNumber (h : History) (e : Place) (n : Epoch) : Prop := ∃ τ ∈ h, τ.before.epoch? e = some n

theorem HadNumber.snoc {n : Epoch} {τ : Transition} (hh : HadNumber h e n) :
    HadNumber (h ++ [τ]) e n :=
  let ⟨τ', hτ', he⟩ := hh
  ⟨τ', List.mem_append_left _ hτ', he⟩

/-- Every move of a run is one of the listed steps. -/
theorem Path.moveStep (run : Run setup busCapacity h s) (hm : s.move? setup m = some t) :
    MoveStep setup s m t :=
  moveStep_of_move (numbered_of_run run) hm

/-- A session has its number for good. -/
theorem HadNumber.epoch?_eq {n : Epoch} (hh : HadNumber h e n) (run : Run setup busCapacity h s) :
    s.epoch? e = some n := by
  induction run with
  | nil =>
    obtain ⟨τ, hτ, -⟩ := hh
    cases hτ
  | snoc run hm ih =>
    obtain ⟨τ, hτ, he⟩ := hh
    rcases List.mem_append.mp hτ with hold | hnew
    · exact (run.moveStep hm).epoch?_eq (ih ⟨τ, hold, he⟩)
    · obtain rfl := List.mem_singleton.mp hnew
      exact (run.moveStep hm).epoch?_eq he

end StompRelay.Relay

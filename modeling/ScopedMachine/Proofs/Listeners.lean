import ScopedMachine.Proofs.Grips

/-!
# Listeners on sources

`Listeners` says how a step changes the listeners of the sources: one is added at the end, or one
is removed by the release of the scope of its token. A machine's own listeners are added only while
it subscribes the routes of an activation.
-/

namespace ScopedMachine

variable {H : Type} {p : Program H} {m : MachineId}

/-! ## Registrations on sources -/

/-- The listeners of a source. -/
def World.entries (slot : Nat) (w : World H) : List (Registration (Listener H)) :=
  ((w.source? slot).map (·.registry.entries)).getD []

/-- How a step changes the listeners of the sources. -/
inductive Listeners (c c' : Config H) : Prop where
  | same (entries : ∀ slot, c'.world.entries slot = c.world.entries slot)
  | add (slot : Nat) (r : Registration (Listener H)) (live : c.world.isCancelled r.token = false)
      (entries : ∀ i, c'.world.entries i =
        if i = slot then c.world.entries i ++ [r] else c.world.entries i)
      (route : ∀ m id, r.listener = .route m id →
        ∃ a route rest stage result, c.control = .give (.result result) ∧
          c.stack.head? = some (.subscribing m a (route :: rest) stage) ∧ r.token = a.scope)
  | remove (slot number : Nat) (s : ScopeId) (ts : List (Teardown H))
      (top : .releasing s (.unlisten slot number :: ts) ∈ c.stack)
      (entries : ∀ i, c'.world.entries i =
        if i = slot then (c.world.entries i).filter (·.number != number) else c.world.entries i)

namespace World

variable {w w' : World H} {slot i : Nat}

theorem entries_congr (sources : w'.sources = w.sources) : w'.entries i = w.entries i := by
  rw [entries, entries, source?, source?, sources]

theorem entries_modifySource {f : SourceCell H → SourceCell H} :
    (w.modifySource slot f).entries i =
      if i = slot then ((w.source? slot).map fun x => (f x).registry.entries).getD []
      else w.entries i := by
  rw [entries, source?_modifySource]
  split
  · next h => rw [h, Option.map_map]; rfl
  · rfl

theorem entries_modifyClock {f : Clock → Clock} :
    (w.modifySource slot (SourceCell.modifyClock f)).entries i = w.entries i := by
  rw [entries_modifySource]
  split
  · next h => simp only [h, entries, registry_modifyClock]
  · rfl

/-- A listener is added if there is such a source and the token is live. -/
theorem entries_register {topic : String} {token : ScopeId} {l : Listener H} :
    (∀ i, (w.register slot topic token l).entries i = w.entries i) ∧
        (w.source? slot = none ∨ w.isCancelled token) ∨
      ∃ source, w.source? slot = some source ∧ w.isCancelled token = false ∧
        ∀ i, (w.register slot topic token l).entries i =
          if i = slot then w.entries i ++ [⟨source.registry.nextNumber, topic, token, l⟩]
          else w.entries i := by
  unfold register
  cases found : w.source? slot with
  | none => exact .inl ⟨fun _ => rfl, .inl rfl⟩
  | some source =>
    cases live : w.isCancelled token with
    | true => exact .inl ⟨fun _ => rfl, .inr rfl⟩
    | false =>
      refine .inr ⟨source, rfl, rfl, fun i => ?_⟩
      show (w.modifySource slot _).entries i = _
      rw [entries_modifySource]
      split
      · next h =>
        rw [h, entries, found]
        rfl
      · rfl

end World

theorem Turn.listeners {w w' : World H} {h h' : H} {d : Option Deed} {e : Effect H}
    {cell cell' : MachineCell H} {ctl ctl' : Control H} {pops pushes rest : List (Frame H)}
    (turn : Turn p w m d e ⟨cell, ctl, pops⟩ ⟨cell', ctl', pushes⟩)
    (turned : w.Turned m cell' e w') :
    Listeners ⟨w, h, ctl, pops ++ rest⟩ ⟨w', h', ctl', pushes ++ rest⟩ := by
  have same (sources : (e.apply m w).sources = w.sources) :
      Listeners ⟨w, h, ctl, pops ++ rest⟩ ⟨w', h', ctl', pushes ++ rest⟩ :=
    .same fun _ => World.entries_congr (turned.sources.trans sources)
  cases turn with
  | enter enters => exact same rfl
  | @subscribe _ result a route routes stage =>
    have sources : w'.sources = _ := turned.sources
    rcases World.entries_register with ⟨kept, _⟩ | ⟨source, found, live, entries⟩
    · exact .same fun i => (World.entries_congr sources).trans (kept i)
    · refine .add route.source.slot _ live
        (fun i => (World.entries_congr sources).trans (entries i)) fun n id h => ?_
      cases h
      exact ⟨a, route, routes, stage, result, rfl, rfl, rfl⟩
  | _ => exact same rfl

theorem Move.listeners {c c' : Config H} (move : Move p c c') : Listeners c c' := by
  cases move with
  | idle pops pushes rest alike => exact .same fun _ => World.entries_congr alike.sources
  | @newScope w h s manager =>
    refine .same fun _ => World.entries_congr ?_
    cases manager <;> rfl
  | @listen w h s slot topic token f =>
    rcases World.entries_register with ⟨same, _⟩ | ⟨source, found, live, entries⟩
    · exact .same same
    · exact .add slot _ live entries nofun
  | @unlisten w h a slot number s ts ctl' rest plain =>
    refine .remove slot number s ts (List.mem_cons_self ..) fun i => ?_
    show (w.modifySource slot _).entries i = _
    rw [World.entries_modifySource]
    split
    · next hi =>
      rw [hi, World.entries]
      cases w.source? slot <;> rfl
    · rfl
  | unobserveGone alike => exact .same fun _ => World.entries_congr alike.sources
  | arm =>
    refine .same fun i => ?_
    unfold World.arm
    split
    · rfl
    · split
      · rfl
      · exact World.entries_modifyClock
  | disarm | tick | reached => exact .same fun _ => World.entries_modifyClock
  | start frames new machine scopes sources => exact .same fun _ => World.entries_congr sources
  | turn pops pushes rest found turn turned others => exact turn.listeners turned
  | _ => exact .same fun _ => rfl

/-! ## Sources stay what they are -/

/-- Whether host code decides what a subscription to a source means. -/
def SourceCell.isHosted (x : SourceCell H) : Bool :=
  match x.kind with
  | .hosted _ => true
  | .emitter | .timer _ => false

/-- The identity of the source at a place, and whether it is hosted. -/
def World.sourceHeader? (slot : Nat) (w : World H) : Option (SourceId × Bool) :=
  (w.source? slot).map fun x => (x.id, x.isHosted)

namespace World

variable {w w' : World H} {slot i : Nat}

theorem sourceHeader?_congr (sources : w'.sources = w.sources) :
    w'.sourceHeader? i = w.sourceHeader? i := by
  rw [sourceHeader?, sourceHeader?, source?, source?, sources]

theorem sourceHeader?_modifySource {f : SourceCell H → SourceCell H}
    (same : ∀ x, (f x).id = x.id ∧ (f x).isHosted = x.isHosted) :
    (w.modifySource slot f).sourceHeader? i = w.sourceHeader? i := by
  rw [sourceHeader?, sourceHeader?, source?_modifySource]
  split
  · cases w.source? i with
    | none => rfl
    | some x => simp [same]
  · rfl

theorem sourceHeader?_modifyClock {f : Clock → Clock} :
    (w.modifySource slot (SourceCell.modifyClock f)).sourceHeader? i = w.sourceHeader? i := by
  refine sourceHeader?_modifySource fun x => ?_
  unfold SourceCell.modifyClock SourceCell.isHosted
  cases h : x.kind <;> simp [h]

theorem sourceHeader?_register {topic : String} {token : ScopeId} {l : Listener H} :
    (w.register slot topic token l).sourceHeader? i = w.sourceHeader? i := by
  unfold register
  split
  · rfl
  · split
    · rfl
    · exact sourceHeader?_modifySource fun _ => ⟨rfl, rfl⟩

end World

theorem Effect.sourceHeader?_apply {w : World H} {e : Effect H} {i : Nat} :
    (e.apply m w).sourceHeader? i = w.sourceHeader? i := by
  cases e with
  | none | hang | observe | tell => rfl
  | acquire manager => cases manager <;> rfl
  | subscribe => exact World.sourceHeader?_register

theorem Move.sourceHeader? {c c' : Config H} (move : Move p c c') (i : Nat) :
    c'.world.sourceHeader? i = c.world.sourceHeader? i := by
  cases move with
  | idle pops pushes rest alike => exact World.sourceHeader?_congr alike.sources
  | @newScope w h s manager => cases manager <;> rfl
  | listen => exact World.sourceHeader?_register
  | unlisten => exact World.sourceHeader?_modifySource fun _ => ⟨rfl, rfl⟩
  | unobserveGone alike => exact World.sourceHeader?_congr alike.sources
  | arm =>
    unfold World.arm
    split
    · rfl
    · split
      · rfl
      · exact World.sourceHeader?_modifyClock
  | disarm | tick | reached => exact World.sourceHeader?_modifyClock
  | start frames new machine scopes sources => exact World.sourceHeader?_congr sources
  | turn pops pushes rest found turn turned others =>
    exact (World.sourceHeader?_congr turned.sources).trans Effect.sourceHeader?_apply
  | _ => rfl

theorem Program.Run.sourceHeader? {w : World H} {past : List (Config H)} {c : Config H}
    (run : p.Run w past c) (i : Nat) : c.world.sourceHeader? i = w.sourceHeader? i := by
  induction run with
  | begin fresh host s => rfl
  | step run h ih => exact ((run.move h).sourceHeader? i).trans ih
  | resume run ended host s ih => exact ih

end ScopedMachine

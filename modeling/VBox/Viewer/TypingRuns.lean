import VBox.Viewer.Typing

/-!
# Viewer.TypingRuns

Runs of what is typed on the windows of the viewer (`window_event` in
`crates/client/src/viewer/app.rs`), while windows come, go and lose the focus.

* `keys_sent`, `nothing_lost`: the keys of a run are sent at once; every character is sent or held.
* `typed_in_order`: nothing typed is lost and no key but a modifier overtakes a character.
* `preedit_mirrored`: the guest shows what the composer holds.
-/

namespace VBox

open Tape (Writing Stroke)

variable {id : UInt64} {asked : Preedit → Prop}

/-! ## Events -/

/-- What happens to the windows of the viewer and to what is typed on them. `iter` is a walk over the
keys that are held. -/
inductive TypingEvent where
  | keyboard (id : UInt64) (event : KeyEvent)
  | ime (id : UInt64) (event : Ime)
  | modifiersChanged (modifiers : ModifiersState)
  | focused (id : UInt64) (focused : Bool) (iter : List UInt32)
  | closeRequested (id : UInt64) (iter : List UInt32)
  | created (id : UInt64) (title : String)
  | titleChanged (id : UInt64) (title : String)
  | fullscreenChanged (id : UInt64) (fullscreen : Bool)
  | retired (id : UInt64) (iter : List UInt32)
  | removed (id : UInt64) (iter : List UInt32)

namespace KeyboardApp

variable {app app' : KeyboardApp WindowComposer}

def releaseWindowKeys (app : KeyboardApp WindowComposer) (id : UInt64) (iter : List UInt32) :
    KeyboardApp WindowComposer :=
  { app with keys := app.keys.releaseWindowGuestKeys id iter }

/-- A window that is created again keeps its composer. -/
def createWindow (app : KeyboardApp WindowComposer) (id : UInt64) (title : String) :
    KeyboardApp WindowComposer :=
  let title := windowTitle title
  let view :=
    match app.windows.get? id with
    | some view => { view with title }
    | none => { title, fullscreen := false, composer := .fresh }
  { app with windows := app.windows.insert id view }

/-- The host's events are only heard for windows that are there. -/
def onWindow (app : KeyboardApp WindowComposer) (id : UInt64)
    (handler : KeyboardApp WindowComposer → KeyboardApp WindowComposer) : KeyboardApp WindowComposer :=
  if app.windows.contains id then handler app else app

def typingStep (app : KeyboardApp WindowComposer) : TypingEvent → KeyboardApp WindowComposer
  | .keyboard id event => app.onWindow id fun app => app.handleKeyboard inputComposer id event
  | .ime id event => app.onWindow id fun app => app.handleIme inputComposer id event
  | .modifiersChanged modifiers => { app with modifiers }
  | .focused id focused iter => app.onWindow id fun app =>
    let app := if focused then app else app.releaseWindowKeys id iter
    app.sendInput (.focus id focused)
  | .closeRequested id iter => app.onWindow id fun app =>
    (app.releaseWindowKeys id iter).sendInput (.close id)
  | .created id title => app.createWindow id title
  | .titleChanged id title =>
    { app with windows := app.windows.modify id fun view => { view with title := windowTitle title } }
  | .fullscreenChanged id fullscreen =>
    { app with windows := app.windows.modify id fun view => { view with fullscreen } }
  | .retired id iter => app.releaseWindowKeys id iter
  | .removed id iter => { app with windows := app.windows.remove id }.releaseWindowKeys id iter

/-- What an event types on a window. -/
def writing (app : KeyboardApp WindowComposer) (id : UInt64) : TypingEvent → List GuestWriting
  | .keyboard w event => if app.windows.contains w then own id w (app.keyWriting w event) else []
  | .ime w event => if app.windows.contains w then own id w (app.imeWriting event) else []
  | _ => []

/-- What a run types on a window. -/
def writings (id : UInt64) : KeyboardApp WindowComposer → List TypingEvent → List GuestWriting
  | _, [] => []
  | app, event :: run => app.writing id event ++ writings id (app.typingStep event) run

/-- The preedits of the input method in a run. -/
def Asked (id : UInt64) (run : List TypingEvent) (preedit : Preedit) : Prop :=
  ∃ text cursor, .ime id (.preedit text cursor) ∈ run ∧ preedit = (text, imeCursorRange cursor)

/-! ## Steps -/

theorem typed_releaseKeys_send (app : KeyboardApp WindowComposer) (w : UInt64) (iter : List UInt32)
    {event : InputEvent} (h : Silent id event) :
    Typed id asked [] app ((app.releaseWindowKeys w iter).sendInput event) := by
  refine (typed_releaseWindow app w iter).after (.silent rfl rfl fun e he => ?_)
  obtain rfl := List.mem_singleton.mp he
  exact h

/-- Windows that come, go or change do not type on a window that stays. -/
theorem sends_windows {windows : Table UInt64 (KeyboardWindow WindowComposer)}
    (h : (windows.get? id).map (·.composer) = (app.windows.get? id).map (·.composer)) :
    Sends id asked [] app { app with windows } := by
  have hheld : { app with windows }.held id = app.held id := by
    have heq := congrArg (fun c => c.elim [] WindowComposer.held) h
    simpa [held, Option.elim_map, Function.comp_def] using heq
  have hshown : { app with windows }.shown id = app.shown id := by
    have heq := congrArg (fun c => c.bind WindowComposer.shown) h
    simpa [shown, Option.bind_map, Function.comp_def] using heq
  exact .silent hheld hshown (List.append_nil _).symm (List.forall_mem_nil _)

theorem typed_modify (w : UInt64)
    (f : KeyboardWindow WindowComposer → KeyboardWindow WindowComposer)
    (h : ∀ view, (f view).composer = view.composer) :
    Typed id asked [] app { app with windows := app.windows.modify w f } := by
  refine ⟨fun w' => ?_, sends_windows ?_⟩
  · by_cases hw : w' = w
    · subst hw
      simp [Table.contains]
    · simp [Table.contains, hw]
  · by_cases hw : id = w
    · subst hw
      cases hview : app.windows.get? id <;> simp [hview, h]
    · simp [hw]

/-- An event that neither creates nor removes a window. -/
theorem typed_step (event : TypingEvent) (hasked : ∀ preedit, Asked id [event] preedit → asked preedit)
    (hcreated : ∀ w title, event ≠ .created w title)
    (hremoved : ∀ w iter, event ≠ .removed w iter) :
    Typed id asked (app.writing id event) app (app.typingStep event) := by
  have hignored : ∀ {w}, ¬ app.windows.contains w = true →
      ∀ handler, app.onWindow w handler = app := fun hw _ => if_neg hw
  have hheard : ∀ {w}, app.windows.contains w = true →
      ∀ handler, app.onWindow w handler = handler app := fun hw _ => if_pos hw
  cases event with
  | keyboard w event =>
    simp only [writing, typingStep]
    by_cases hw : app.windows.contains w = true
    · rw [if_pos hw, hheard hw]
      exact typed_keyboard hw event
    · rw [if_neg hw, hignored hw]
      exact .refl app
  | ime w event =>
    simp only [writing, typingStep]
    by_cases hw : app.windows.contains w = true
    · rw [if_pos hw, hheard hw]
      refine typed_ime hw event ?_
      rintro rfl text cursor rfl
      exact hasked _ ⟨text, cursor, List.mem_singleton_self _, rfl⟩
    · rw [if_neg hw, hignored hw]
      exact .refl app
  | modifiersChanged modifiers => exact typed_modifiers app modifiers
  | focused w focused iter =>
    simp only [writing, typingStep]
    by_cases hw : app.windows.contains w = true
    · rw [hheard hw]
      cases focused with
      | true =>
        refine .silent rfl rfl fun e he => ?_
        obtain rfl := List.mem_singleton.mp he
        exact ⟨rfl, rfl⟩
      | false => exact typed_releaseKeys_send app w iter ⟨rfl, rfl⟩
    · rw [hignored hw]
      exact .refl app
  | closeRequested w iter =>
    simp only [writing, typingStep]
    by_cases hw : app.windows.contains w = true
    · rw [hheard hw]
      exact typed_releaseKeys_send app w iter ⟨rfl, rfl⟩
    · rw [hignored hw]
      exact .refl app
  | created w title => exact absurd rfl (hcreated w title)
  | titleChanged w title => exact typed_modify w _ fun _ => rfl
  | fullscreenChanged w fullscreen => exact typed_modify w _ fun _ => rfl
  | retired w iter => exact typed_releaseWindow app w iter
  | removed w iter => exact absurd rfl (hremoved w iter)

/-- One event, while the window stays. -/
theorem sends_step (event : TypingEvent) (hkept : ∀ iter, event ≠ .removed id iter)
    (hasked : ∀ preedit, Asked id [event] preedit → asked preedit)
    (hopen : app.windows.contains id = true) :
    Sends id asked (app.writing id event) app (app.typingStep event) ∧
      (app.typingStep event).windows.contains id = true := by
  by_cases hcreated : ∃ w title, event = .created w title
  · obtain ⟨w, title, rfl⟩ := hcreated
    refine ⟨sends_windows ?_, by simp [typingStep, createWindow, hopen]⟩
    obtain ⟨view, hview⟩ := (Table.contains_iff _ id).mp hopen
    by_cases h : id = w
    · subst h
      simp [hview]
    · simp [h]
  by_cases hremoved : ∃ w iter, event = .removed w iter
  · obtain ⟨w, iter, rfl⟩ := hremoved
    have hne : id ≠ w := by
      rintro rfl
      exact hkept iter rfl
    have hwindow : Sends id asked [] app { app with windows := app.windows.remove w } :=
      sends_windows (by simp [hne])
    exact ⟨hwindow.trans (typed_releaseWindow _ w iter).sends,
      by simp [typingStep, releaseWindowKeys, hne, hopen]⟩
  · have htyped : Typed id asked (app.writing id event) app (app.typingStep event) :=
      typed_step event hasked (fun w title h => hcreated ⟨w, title, h⟩)
        fun w iter h => hremoved ⟨w, iter, h⟩
    exact ⟨htyped.sends, (htyped.opened id).trans hopen⟩

/-! ## Runs -/

/-- Over a run, what is typed on a window goes to the guest or is held back, in its order. -/
theorem sends_run {run : List TypingEvent} (hkept : ∀ iter, .removed id iter ∉ run)
    (hasked : ∀ preedit, Asked id run preedit → asked preedit)
    (hopen : app.windows.contains id = true) :
    Sends id asked (writings id app run) app (run.foldl typingStep app) := by
  induction run generalizing app with
  | nil => exact (Typed.refl app).sends
  | cons event run ih =>
    have hstep := sends_step event (fun iter heq => hkept iter (heq ▸ List.mem_cons_self))
      (fun preedit ⟨text, cursor, hmem, heq⟩ => hasked preedit
        ⟨text, cursor, List.mem_cons.mpr (.inl (List.mem_singleton.mp hmem)), heq⟩) hopen
    refine hstep.1.trans (ih (fun iter hmem => hkept iter (List.mem_cons_of_mem _ hmem)) ?_ hstep.2)
    rintro preedit ⟨text, cursor, hmem, heq⟩
    exact hasked preedit ⟨text, cursor, List.mem_cons_of_mem _ hmem, heq⟩

/-- The keys of a run are sent at once: those that were typed, in their order. -/
theorem keys_sent {run : List TypingEvent} (hopen : app.windows.contains id = true)
    (hkept : ∀ iter, .removed id iter ∉ run) :
    ∃ events, (run.foldl typingStep app).keys.sent = app.keys.sent ++ events ∧
      (strokes id events).filterMap Stroke.key? = (writings id app run).filterMap Writing.key? := by
  have hsends : Sends id (Asked id run) (writings id app run) app (run.foldl typingStep app) :=
    sends_run hkept (fun _ h => h) hopen
  obtain ⟨events, hsent, hpasses, -⟩ := hsends
  have hkeys := hpasses.keys
  rw [List.filterMap_append, Tape.Edits.filterMap_key?_chars, Tape.Edits.filterMap_key?_chars,
    List.append_nil, List.nil_append] at hkeys
  exact ⟨events, hsent, hkeys⟩

/-- Without a Backspace in the composer, every character is sent or held. -/
theorem nothing_lost {run : List TypingEvent} (hopen : app.windows.contains id = true)
    (hkept : ∀ iter, .removed id iter ∉ run) (herase : .erase ∉ writings id app run) :
    ∃ events, (run.foldl typingStep app).keys.sent = app.keys.sent ++ events ∧
      strokes id events ++ ((run.foldl typingStep app).held id).map .char =
        (app.held id).map .char ++ (writings id app run).flatMap Writing.strokes := by
  have hsends : Sends id (Asked id run) (writings id app run) app (run.foldl typingStep app) :=
    sends_run hkept (fun _ h => h) hopen
  obtain ⟨events, hsent, hpasses, -⟩ := hsends
  exact ⟨events, hsent, hpasses.written herase⟩

/-- **What is typed arrives in its order.** In every run in which a window stays, what is sent to the
guest for it, with what its composer still holds, is what its composer held before and what was typed
since: no character is lost or repeated but those that Backspace takes back while they are held, and no
key but a modifier overtakes a character. -/
theorem typed_in_order {run : List TypingEvent} (hopen : app.windows.contains id = true)
    (hkept : ∀ iter, .removed id iter ∉ run) :
    ∃ events, (run.foldl typingStep app).keys.sent = app.keys.sent ++ events ∧
      Tape.Edits (writings id app run) ((app.held id).map .char)
        (strokes id events ++ ((run.foldl typingStep app).held id).map .char) := by
  have hsends : Sends id (Asked id run) (writings id app run) app (run.foldl typingStep app) :=
    sends_run hkept (fun _ h => h) hopen
  obtain ⟨events, hsent, hpasses, -⟩ := hsends
  exact ⟨events, hsent, hpasses⟩

/-! ### A syllable and Enter -/

/-- The viewer with one window, before any key. -/
def editorApp : KeyboardApp WindowComposer :=
  { keys := .empty, modifiers := .empty
    windows := Table.empty.insert 1 { title := "Editor", fullscreen := false, composer := .fresh } }

def enterPressed : KeyEvent :=
  { physicalKey := .code .enter, logicalKey := .named .enter, text := none, state := .pressed
    isRepeat := false }

def syllableAndEnter : List TypingEvent :=
  [.ime 1 (.commit "ㅎ"), .ime 1 (.commit "ㅏ"), .ime 1 (.commit "ㄴ"), .keyboard 1 enterPressed]

/-- The syllable is sent before the key that ends it. -/
theorem typed_in_order_syllable :
    (syllableAndEnter.foldl typingStep editorApp).keys.sent =
        [.preedit 1 "ㅎ" 3 3, .preedit 1 "하" 3 3, .preedit 1 "한" 3 3, .text 1 "한",
          .preedit 1 "" (-1) (-1), .key 1 28 .pressed] ∧
      ∃ events, (syllableAndEnter.foldl typingStep editorApp).keys.sent =
          editorApp.keys.sent ++ events ∧
        Tape.Edits (writings 1 editorApp syllableAndEnter) ((editorApp.held 1).map .char)
          (strokes 1 events ++ ((syllableAndEnter.foldl typingStep editorApp).held 1).map .char) :=
  ⟨by decide +kernel, typed_in_order (by decide) (by simp [syllableAndEnter])⟩

/-- **The guest shows what the composer holds.** In every run of a window, from its creation, its
preedit in the guest is what its composer shows; while that shows nothing, the guest shows nothing, or
what the host's input method asked for in the run. -/
theorem preedit_mirrored {run : List TypingEvent} {title : String}
    (hnew : app.windows.contains id = false) (hsent : preeditSince id none app.keys.sent = none)
    (hkept : ∀ iter, .removed id iter ∉ run) :
    let app' := run.foldl typingStep (app.createWindow id title)
    Shows (Asked id run) (app'.shown id) (preeditSince id none app'.keys.sent) := by
  have hopen : (app.createWindow id title).windows.contains id = true := by simp [createWindow]
  have hfresh : (app.createWindow id title).shown id = none := by
    have hview : app.windows.get? id = none := by simpa [Table.contains] using hnew
    simp [createWindow, shown, hview, WindowComposer.fresh, WindowComposer.shown,
      InputComposer.pendingText]
    rfl
  have hsends : Sends id (Asked id run) (writings id (app.createWindow id title) run)
      (app.createWindow id title) (run.foldl typingStep (app.createWindow id title)) :=
    sends_run hkept (fun _ h => h) hopen
  obtain ⟨events, hevents, -, hshows⟩ := hsends
  have hkeys : (app.createWindow id title).keys = app.keys := rfl
  dsimp only
  rw [hevents, hkeys, preeditSince_append, hsent]
  refine hshows none ?_
  rw [hfresh]
  intro preedit h
  cases h

/-- The syllable of which a consonant is still to come. -/
theorem preedit_mirrored_syllable :
    let app : KeyboardApp WindowComposer :=
      { keys := .empty, modifiers := .empty, windows := .empty }
    let app' := (syllableAndEnter.take 3).foldl typingStep (app.createWindow 1 "Editor")
    app'.shown 1 = some "한" ∧
      Shows (Asked 1 (syllableAndEnter.take 3)) (app'.shown 1) (preeditSince 1 none app'.keys.sent) :=
  ⟨by decide +kernel, preedit_mirrored (by decide) rfl (by simp [syllableAndEnter])⟩

end KeyboardApp

end VBox

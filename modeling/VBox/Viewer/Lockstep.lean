import VBox.Session.Sizes
import VBox.Viewer.App

/-!
# Viewer.Lockstep

The two sides of a session agree on the sizes of the windows. The viewer takes a size from `Created`
and `Configured`, and a tile that reaches beyond the frame makes it grow; the compositor sends tiles
from buffers that it has kept, and from children at any place.

* `Follows`: the viewer has a frame of the right size for every window.
* `handleMessage_follows`: it keeps that by the messages that `Tells` allows.
* `window_sizes_agree`: so it has whenever it has handled what the compositor has sent, in every
  session with fewer than `2 ^ 64` windows. With more, two windows share an id
  (`shared_window_grows`).
-/

namespace VBox

open Compositor

theorem Compositor.TileInside.fits {tile : FrameTile} {s : Compositor.Size} (hin : TileInside tile s) :
    tile.Fits :=
  ⟨Nat.lt_of_le_of_lt hin.right s.1.toNat_lt, Nat.lt_of_le_of_lt hin.bottom s.2.toNat_lt⟩

namespace FrameBuffer

def size (f : FrameBuffer) : Nat × Nat := (f.width, f.height)

variable {f f' : FrameBuffer} {tile : FrameTile} {s : Compositor.Size}

theorem size_resizeToRemoteSize {width height : Nat}
    (h : f.resizeToRemoteSize width height = .ok f') : f'.size = (max width 1, max height 1) := by
  have hpicture := picture_resizeForRemoteSize h
  exact Prod.ext (congrArg Picture.width hpicture) (congrArg Picture.height hpicture)

/-- A frame of the size of its window, which is not empty. -/
structure HasSize (f : FrameBuffer) (s : Compositor.Size) : Prop where
  size : f.size = (s.1.toNat, s.2.toNat)
  width_pos : 1 ≤ s.1.toNat
  height_pos : 1 ≤ s.2.toNat

theorem HasSize.width (hf : f.HasSize s) : f.width = s.1.toNat := congrArg Prod.fst hf.size

theorem HasSize.height (hf : f.HasSize s) : f.height = s.2.toNat := congrArg Prod.snd hf.size

/-- The picture that a tile inside the window is painted on does not grow. -/
theorem HasSize.overlay (hf : f.HasSize s) (hin : TileInside tile s) :
    max (max f.width (tile.x.toNat + tile.w.toNat)) 1 = f.width ∧
      max (max f.height (tile.y.toNat + tile.h.toNat)) 1 = f.height := by
  have hright := hin.right
  have hbottom := hin.bottom
  have hw := hf.width_pos
  have hh := hf.height_pos
  rw [hf.width, hf.height]
  omega

theorem HasSize.size_applyTile (hf : f.HasSize s) (hin : TileInside tile s) {changed : Bool}
    (h : f.applyTile tile = .ok (f', changed)) : f'.size = f.size := by
  obtain ⟨-, hpic⟩ := picture_of_applyTile hin.fits.right hin.fits.bottom h
  obtain ⟨hw, hh⟩ := hf.overlay hin
  refine Prod.ext ?_ ?_
  · exact (congrArg Picture.width hpic).trans hw
  · exact (congrArg Picture.height hpic).trans hh

/-- A tile is drawn or rejected where the window has fewer than `2 ^ 32` pixels. -/
theorem HasSize.applyTile_ok (hf : f.HasSize s) (hin : TileInside tile s)
    (harea : s.1.toNat * s.2.toNat < 2 ^ 32) :
    (∃ result, f.applyTile tile = .ok result) ∨
      ∃ message, f.applyTile tile = .error (.rejected message) := by
  by_cases ht : tile.Accepted
  · obtain ⟨hw, hh⟩ := hf.overlay hin
    obtain ⟨f', changed, hok, -⟩ := f.picture_applyTile ht hin.fits.right hin.fits.bottom
      (by rw [hf.width]; exact s.1.toNat_lt) (by rw [hf.height]; exact s.2.toNat_lt)
      (by rw [hw, hh, hf.width, hf.height]; exact harea)
    exact .inl ⟨_, hok⟩
  · obtain ⟨message, hplace⟩ := f.applyTileInPlace_of_not_accepted ht
    exact .inr ⟨message, applyTile_eq_rejected.2 ⟨f, hplace⟩⟩

end FrameBuffer

namespace Viewer

variable {Allowed : Compositor.Size → Prop} {sizes sizes' : Sizes} {v v' : Viewer} {msg : Message}

/-- The viewer has a frame of the right size for every window. -/
def Follows (Allowed : Compositor.Size → Prop) (sizes : Sizes) (v : Viewer) : Prop :=
  ∀ id s, sizes id = some s → Allowed s ∧ ∃ frame, v.windows.lookup id = some frame ∧ frame.HasSize s

/-- Another frame for a window, and other sizes. -/
theorem Follows.update (hf : Follows Allowed sizes v) {id : UInt64} {frame : FrameBuffer}
    {s : Compositor.Size} {retired : Finset UInt64} (hs : Allowed s) (hsize : frame.HasSize s) :
    Follows Allowed (Function.update sizes id (some s))
      { windows := v.windows.insert id frame, retiredWindowIds := retired } := by
  intro i s' hi
  rw [Function.update_apply] at hi
  split at hi
  · rename_i hid
    subst hid
    cases hi
    exact ⟨hs, frame, Finmap.lookup_insert _, hsize⟩
  · rename_i hid
    obtain ⟨hallowed, old, hold, hsize'⟩ := hf i s' hi
    exact ⟨hallowed, old, by rw [Finmap.lookup_insert_of_ne _ hid, hold], hsize'⟩

theorem hasSize_resized {frame frame' : FrameBuffer} {s : Compositor.Size} (hw : 1 ≤ s.1.toNat)
    (hh : 1 ≤ s.2.toNat)
    (h : frame.resizeToRemoteSize (max s.1.toNat 1) (max s.2.toNat 1) = .ok frame') :
    frame'.HasSize s := by
  refine ⟨?_, hw, hh⟩
  rw [FrameBuffer.size_resizeToRemoteSize h]
  refine Prod.ext ?_ ?_
  · show max (max s.1.toNat 1) 1 = s.1.toNat
    omega
  · show max (max s.2.toNat 1) 1 = s.2.toNat
    omega

theorem Follows.created (hf : Follows Allowed sizes v) (hone : Allowed (1, 1)) (id : UInt64)
    (title appId : String)
    (h : v.handleRemoteWindowEvent (.created id { x := 0, y := 0, w := 1, h := 1 } title appId) =
      .ok v') :
    Follows Allowed (Function.update sizes id (some (1, 1))) v' := by
  have hsize {frame frame' : FrameBuffer} (hresize : frame.resizeToRemoteSize 1 1 = .ok frame') :
      frame'.HasSize (1, 1) :=
    hasSize_resized (s := (1, 1)) (Nat.le_refl 1) (Nat.le_refl 1) hresize
  simp only [handleRemoteWindowEvent, createWindow] at h
  split at h
  · obtain ⟨frame', hresize, h⟩ := Raster.bind_eq_ok.1 h
    cases h
    exact hf.update hone (hsize hresize)
  · obtain ⟨blank, -, h⟩ := Raster.bind_eq_ok.1 h
    obtain ⟨frame', hresize, h⟩ := Raster.bind_eq_ok.1 h
    cases h
    exact hf.update hone (hsize hresize)

theorem Follows.configured (hf : Follows Allowed sizes v) {id : UInt64} {old s : Compositor.Size}
    (hold : sizes id = some old) (hs : Allowed s) (hw : 1 ≤ s.1.toNat) (hh : 1 ≤ s.2.toNat)
    (h : v.handleRemoteWindowEvent (.configured id { x := 0, y := 0, w := s.1, h := s.2 }) = .ok v') :
    Follows Allowed (Function.update sizes id (some s)) v' := by
  obtain ⟨-, frame, hframe, -⟩ := hf id old hold
  simp only [handleRemoteWindowEvent, hframe] at h
  obtain ⟨frame', hresize, h⟩ := Raster.bind_eq_ok.1 h
  cases h
  exact hf.update hs (hasSize_resized hw hh hresize)

/-- The frames of the other windows stay when one goes. -/
theorem Follows.destroyed (hf : Follows Allowed sizes v) {id : UInt64}
    (h : v.handleRemoteWindowEvent (.destroyed id) = .ok v') :
    Follows Allowed (Function.update sizes id none) v' := by
  intro i s hi
  rw [Function.update_apply] at hi
  split at hi
  · cases hi
  rename_i hid
  obtain ⟨hallowed, frame, hframe, hsize⟩ := hf i s hi
  refine ⟨hallowed, frame, ?_, hsize⟩
  simp only [handleRemoteWindowEvent] at h
  split at h
  · cases h
    exact hframe
  · cases h
    rw [Finmap.lookup_erase_ne hid, hframe]

theorem handleMessage_plain (h : plain msg = true) (v : Viewer) : v.handleMessage msg = .ok v := by
  cases msg with
  | windowEvent event =>
    cases event with
    | titleChanged | minimized | moveRequested | fullscreenChanged => rfl
    | created | configured | destroyed => cases h
  | _ => cases h

/-- The sizes of the frames of the viewer. -/
def frameSizes (v : Viewer) (id : UInt64) : Option (Nat × Nat) :=
  (v.windows.lookup id).map FrameBuffer.size

theorem Follows.frameTile (hf : Follows Allowed sizes v) {tile : FrameTile} {s : Compositor.Size}
    (hs : sizes tile.id = some s) (hin : TileInside tile s)
    (h : v.handleMessage (.frameTile tile) = .ok v') : v'.frameSizes = v.frameSizes := by
  obtain ⟨-, frame, hframe, hsize⟩ := hf tile.id s hs
  simp only [handleMessage, hframe] at h
  split at h
  · cases h
    rfl
  · cases h
  · rename_i frame' changed happly
    cases h
    funext i
    unfold frameSizes
    by_cases hi : i = tile.id
    · rw [hi, Finmap.lookup_insert, hframe, Option.map_some, Option.map_some,
        hsize.size_applyTile hin happly]
    · rw [Finmap.lookup_insert_of_ne _ hi]

theorem Follows.of_frameSizes (hf : Follows Allowed sizes v) (h : v'.frameSizes = v.frameSizes) :
    Follows Allowed sizes v' := by
  intro id s hs
  obtain ⟨hallowed, frame, hframe, hsize⟩ := hf id s hs
  have hsame := congrFun h id
  rw [frameSizes, frameSizes, hframe, Option.map_some] at hsame
  obtain ⟨frame', hframe', hsize'⟩ := Option.map_eq_some_iff.1 hsame
  exact ⟨hallowed, frame', hframe', hsize'.trans hsize.size, hsize.width_pos, hsize.height_pos⟩

/-- **The viewer follows the sizes that a message tells.** -/
theorem handleMessage_follows (hone : Allowed (1, 1)) (hf : Follows Allowed sizes v)
    (htells : Tells Allowed sizes msg sizes') (h : v.handleMessage msg = .ok v') :
    Follows Allowed sizes' v' := by
  cases htells with
  | tile hs hin => exact hf.of_frameSizes (hf.frameTile hs hin h)
  | @created id title appId => exact hf.created hone id title appId h
  | configured hold hw hh hs => exact hf.configured hold hs hw hh h
  | destroyed => exact hf.destroyed h
  | plain hplain =>
    rw [handleMessage_plain hplain] at h
    cases h
    exact hf

/-- Windows with fewer than `2 ^ 32` pixels, which is the most that a frame can draw. -/
def Drawable (s : Compositor.Size) : Prop := s.1.toNat * s.2.toNat < 2 ^ 32

theorem drawable_one : Drawable (1, 1) := by
  show 1 * 1 < 2 ^ 32
  omega

/-- No message of the compositor makes the viewer fail. -/
theorem handleMessage_runs (hf : Follows Drawable sizes v) (htells : Tells Drawable sizes msg sizes') :
    ∃ v', v.handleMessage msg = .ok v' ∧ Follows Drawable sizes' v' := by
  have hok : ∃ v', v.handleMessage msg = .ok v' := by
    cases htells with
    | @tile tile s hs hin =>
      obtain ⟨harea, frame, hframe, hsize⟩ := hf tile.id s hs
      simp only [handleMessage, hframe]
      obtain ⟨⟨frame', changed⟩, hok⟩ | ⟨message, hrejected⟩ := hsize.applyTile_ok hin harea
      · rw [hok]
        exact ⟨_, rfl⟩
      · rw [hrejected]
        exact ⟨_, rfl⟩
    | @created id title appId => exact created_ok v id title appId
    | @configured id old s hold hw hh hs =>
      obtain ⟨-, frame, hframe, -⟩ := hf id old hold
      have hfit : 4 * (s.1.toNat * s.2.toNat) < 2 ^ 63 := by
        have harea : s.1.toNat * s.2.toNat < 2 ^ 32 := hs
        omega
      obtain ⟨v', hv', -⟩ := Shows.configured ⟨frame, hframe, rfl⟩
        { x := 0, y := 0, w := s.1, h := s.2 } hw hh hfit
      exact ⟨v', hv'⟩
    | destroyed => exact destroyed_ok v _
    | plain hplain => exact ⟨v, handleMessage_plain hplain v⟩
  obtain ⟨v', h⟩ := hok
  exact ⟨v', h, handleMessage_follows drawable_one hf htells h⟩

theorem follows_none (v : Viewer) : Follows Allowed (fun _ => none) v := by
  intro id s h
  cases h

/-- What the compositor has sent since the start leads to the sizes that it has. -/
theorem trace_of_told {req : ViewRequest} {app : Compositor.App}
    (h : Compositor.App.Told Allowed (.start req) app) :
    Trace (Tells Allowed) (fun _ => none) app.tx app.sizes := by
  obtain ⟨msgs, htx, htrace⟩ := h
  rw [htx]
  exact htrace

theorem follows_of_trace {msgs : List Message} (htrace : Trace (Tells Allowed) (fun _ => none) msgs sizes)
    (hone : Allowed (1, 1)) (h : empty.handleAll msgs = .ok v) : Follows Allowed sizes v := by
  refine htrace.simulates ?_ (follows_none empty) h
  intro s msg s' v v' hf htells hv
  exact handleMessage_follows hone hf htells hv

theorem runs_of_trace {msgs : List Message} (htrace : Trace (Tells Drawable) sizes msgs sizes')
    (hf : Follows Drawable sizes v) :
    ∃ v', v.handleAll msgs = .ok v' ∧ Follows Drawable sizes' v' := by
  refine htrace.runs ?_ hf
  intro s msg s' v hf htells
  exact handleMessage_runs hf htells

open Compositor.App

/-- **The viewer and the compositor agree on the size of every window.** Whenever the viewer has
handled what the compositor has sent, it has a frame of the window's size for each window; no tile
makes a frame grow; and it can handle all of it if no buffer has `2 ^ 32` pixels. -/
theorem window_sizes_agree (req : ViewRequest) (roots : Set ObjectId)
    (size : BufferId → Compositor.Size) (calls : List Call) (app : Compositor.App)
    (horder : OneToplevel ∅ calls) (hfew : calls.countP opensWindow < 2 ^ 64)
    (hroles : ∀ call ∈ calls, KeepsRoles roots call) (hsteady : ∀ call ∈ calls, Steady size call.env)
    (hcopies : (start req).CopiesSucceed calls) (hrun : (start req).run calls = .ok app) :
    (∀ v, empty.handleAll app.tx = .ok v → ∀ id window, app.windows.get? id = some window →
      ∃ frame, v.windows.lookup id = some frame ∧ frame.width = window.size.1.toNat ∧
        frame.height = window.size.2.toNat ∧ frame.pixels.length = frame.width * frame.height) ∧
    (∀ msgs tile rest v v', app.tx = msgs ++ .frameTile tile :: rest →
      empty.handleAll msgs = .ok v → v.handleMessage (.frameTile tile) = .ok v' →
      v'.frameSizes = v.frameSizes) ∧
    ((∀ call ∈ calls, ∀ buffer b, call.env.shm buffer = some b → Drawable b.size) →
      ∃ v, empty.handleAll app.tx = .ok v) := by
  have hsized : Sized roots size (start req) :=
    ⟨fun _ _ _ _ hface => (nomatch hface), fun _ _ hcached => (nomatch hcached)⟩
  have hkept : RolesKept roots (start req) := ⟨fun _ _ h => (nomatch h), fun _ _ => rfl⟩
  have htrace (Allowed : Compositor.Size → Prop)
      (hallowed : ∀ call ∈ calls, ∀ buffer b, call.env.shm buffer = some b → Allowed b.size) :
      Trace (Tells Allowed) (fun _ => none) app.tx app.sizes :=
    trace_of_told (hsized.run (opened_start req) hkept horder (by rwa [Nat.zero_add]) hroles hsteady
      hallowed hcopies hrun)
  have hany := htrace (fun _ => True) fun _ _ _ _ _ => trivial
  refine ⟨fun v hv id window hwindow => ?_, fun msgs tile rest v v' htx hv hv' => ?_, fun harea => ?_⟩
  · obtain ⟨-, frame, hframe, hsize⟩ := follows_of_trace hany trivial hv id _ (sizes_eq_some hwindow)
    exact ⟨frame, hframe, hsize.width, hsize.height, frame.pixels_length⟩
  · rw [htx] at hany
    obtain ⟨sizes, hpast, hrest⟩ := hany.split
    cases hrest with
    | cons htells _ =>
      have hf := follows_of_trace hpast trivial hv
      cases htells with
      | tile hs hin => exact hf.frameTile hs hin hv'
      | plain hplain => cases hplain
  · obtain ⟨v, hv, -⟩ := runs_of_trace (htrace Drawable harea) (follows_none empty)
    exact ⟨v, hv⟩

/-- The sizes of the bar and the dot. -/
def barSize (buffer : BufferId) : Compositor.Size := if buffer = 8 then (2, 1) else (1, 1)

theorem barSize_eq (buffer : BufferId) : (if buffer = 8 then App.bar else App.dot).size = barSize buffer := by
  unfold barSize
  split
  · rfl
  · rfl

theorem drawable_barSize (buffer : BufferId) : Drawable (barSize buffer) := by
  unfold barSize
  split
  · show 2 * 1 < 2 ^ 32
    omega
  · exact drawable_one

/-- A call that gives no surface a role. -/
theorem keepsRoles_dotOnBar (call : Call) (h : call ∈ dotOnBar) : KeepsRoles {0} call := by
  simp only [dotOnBar, List.mem_cons, List.not_mem_nil, or_false] at h
  have hancestors : ∀ surface ∈ ({0} : Set ObjectId), (besideEnv 0).ancestors surface = [] := by
    rintro surface rfl
    rfl
  obtain rfl | rfl | rfl := h
  · exact keepsRoles_of hancestors rfl
  · exact keepsRoles_of hancestors trivial
  · exact keepsRoles_of hancestors trivial

theorem copiesSucceed_dotOnBar (req : ViewRequest) : (start req).CopiesSucceed dotOnBar :=
  ⟨trivial, fun _ _ => ⟨fun _ _ => ⟨_, rfl⟩, fun _ _ => ⟨fun _ _ => ⟨_, rfl⟩, fun _ _ => trivial⟩⟩⟩

theorem shm_dotOnBar (call : Call) (h : call ∈ dotOnBar) (buffer : BufferId) (b : ShmBuffer)
    (hb : call.env.shm buffer = some b) : b.size = barSize buffer := by
  have hshm : call.env.shm buffer = some (if buffer = 8 then App.bar else App.dot) := by
    simp only [dotOnBar, List.mem_cons, List.not_mem_nil, or_false] at h
    obtain rfl | rfl | rfl := h <;> rfl
  rw [hshm] at hb
  cases hb
  exact barSize_eq buffer

theorem window_sizes_agree_dotOnBar : ∃ app v frame, (start ⟨"vbox", 640, 480⟩).run dotOnBar = .ok app ∧
    empty.handleAll app.tx = .ok v ∧ v.windows.lookup 1 = some frame ∧ frame.width = 2 ∧
      frame.height = 1 := by
  obtain ⟨hsizes, -, htotal⟩ := window_sizes_agree ⟨"vbox", 640, 480⟩ {0} barSize dotOnBar _
    (by simp [dotOnBar, OneToplevel, MayOpen])
    (List.countP_le_length.trans_lt (by simp [dotOnBar])) keepsRoles_dotOnBar shm_dotOnBar
    (copiesSucceed_dotOnBar _) rfl
  obtain ⟨v, hv⟩ := htotal fun call hcall buffer b hb => by
    rw [shm_dotOnBar call hcall buffer b hb]
    exact drawable_barSize buffer
  obtain ⟨frame, hframe, hw, hh, -⟩ := hsizes v hv 1 _ rfl
  exact ⟨_, v, frame, rfl, hv, hframe, hw, hh⟩

/-! ## More windows than ids -/

/-- The start of a session, but for the ids and the messages that are gone. -/
def blank (n : UInt64) (tx : List Message) : Compositor.App :=
  { start ⟨"vbox", 640, 480⟩ with nextWindowId := n, tx }

/-- The window of a session that has no other. -/
def onlyWindow (n : UInt64) (tx : List Message) : Compositor.App :=
  { blank (saturatingAdd n 1)
      (tx ++ [.windowEvent (.created n { x := 0, y := 0, w := 1, h := 1 } "" "")]) with
    surfaceToWindow := Table.empty.insert 0 n
    windows := Table.empty.insert n
      { toplevel := { size := some (0, 0), maximized := false, fullscreen := false, activated := true }
        surface := 0, size := (1, 1), mode := .normal, lastMoveRequestAt := none }
    activeWindowId := some n }

theorem blank_newToplevel (n : UInt64) (tx : List Message) :
    (blank n tx).newToplevel 0 "" "" = onlyWindow n tx := by
  unfold Compositor.App.newToplevel Compositor.App.focusWindow
  simp [Compositor.RemoteWindow.geom, setToplevelActivation, enqueueMessage, onlyWindow, blank, start]

theorem onlyWindow_toplevelDestroyed (n : UInt64) (tx : List Message) :
    (onlyWindow n tx).toplevelDestroyed bareEnv 0 =
      blank (saturatingAdd n 1) (tx ++ [.windowEvent (.created n { x := 0, y := 0, w := 1, h := 1 } "" ""),
        .windowEvent (.destroyed n)]) := by
  have hroot : (onlyWindow n tx).surfaceToWindow.get? 0 = some n := rfl
  simp only [toplevelDestroyed, hroot]
  simp [removeWindow, bareEnv, focusNext, clearFocus, setToplevelActivation, enqueueMessage,
    onlyWindow, blank, start]

/-- The ids are used up one by one, and the viewer handles what it is told. -/
theorem run_blank (k : Nat) (n : UInt64) (tx : List Message) (h : ∃ v, empty.handleAll tx = .ok v) :
    ∃ n' tx', (blank n tx).run (openClose k) = .ok (blank n' tx') ∧
      n'.toNat = min (n.toNat + k) (2 ^ 64 - 1) ∧ ∃ v, empty.handleAll tx' = .ok v := by
  induction k generalizing n tx with
  | zero =>
    have hlt := n.toNat_lt
    exact ⟨n, tx, rfl, by omega, h⟩
  | succ k ih =>
    obtain ⟨v, hv⟩ := h
    obtain ⟨v₁, hcreated⟩ := created_ok v n "" ""
    obtain ⟨v₂, hdestroyed⟩ := destroyed_ok v₁ n
    obtain ⟨n', tx', hrun, hn', hv'⟩ := ih (saturatingAdd n 1) (tx ++
      [.windowEvent (.created n { x := 0, y := 0, w := 1, h := 1 } "" ""), .windowEvent (.destroyed n)])
      ⟨v₂, by rw [handleAll_append hv, handleAll_cons hcreated, handleAll_cons hdestroyed]; rfl⟩
    refine ⟨n', tx', ?_, ?_, hv'⟩
    · rw [← onlyWindow_toplevelDestroyed, ← blank_newToplevel] at hrun
      rw [openClose_succ]
      exact hrun
    · rw [hn', toNat_saturatingAdd_one]
      omega

theorem copiesSucceed_openClose {calls : List Call} (k : Nat) (app : Compositor.App)
    (h : ∀ app', app.run (openClose k) = .ok app' → app'.CopiesSucceed calls) :
    app.CopiesSucceed (openClose k ++ calls) := by
  induction k generalizing app with
  | zero => exact h app rfl
  | succ k ih =>
    rw [openClose_succ]
    refine ⟨trivial, fun app₁ h₁ => ⟨trivial, fun app₂ h₂ => ih app₂ fun app' hrun => ?_⟩⟩
    cases h₁
    cases h₂
    exact h app' (by rw [openClose_succ]; exact hrun)

/-- Buffer 8 is the bar and any other the dot. -/
def pairEnv : Env := { bareEnv with shm := fun buffer => some (if buffer = 8 then App.bar else App.dot) }

/-- The second window has a popup and the bar, the first the dot. Then the popup goes. -/
def paintShared : List Call :=
  [{ env := pairEnv, event := .newPopup 2 (some 1)
        { getGeometry := ⟨0, 0, 1, 1⟩, getUnconstrainedGeometry := fun _ => ⟨0, 0, 1, 1⟩ } },
    { env := pairEnv, event := .commit 1 (.new 8) 0 }, { env := pairEnv, event := .commit 0 (.new 7) 0 },
    { env := pairEnv, event := .popupDestroyed 2 }]

/-- Two windows, when there is one id left. -/
def shareWindow : List Call :=
  [{ env := pairEnv, event := .newToplevel 0 "" "" },
    { env := pairEnv, event := .newToplevel 1 "" "" }] ++ paintShared

def lastId : UInt64 := 18446744073709551615

def barTile : FrameTile :=
  { id := lastId, x := 0, y := 0, w := 2, h := 1, stride := 8, encoding := .rawRgba,
    bytes := [0, 0, 255, 255, 0, 0, 255, 255] }

def dotTile : FrameTile :=
  { id := lastId, x := 0, y := 0, w := 1, h := 1, stride := 4, encoding := .rawRgba,
    bytes := [255, 0, 0, 255] }

/-- Both surfaces have the window, which is that of the second. -/
def sharedBy (tx : List Message) : Compositor.App :=
  { blank lastId tx with
    surfaceToWindow := (Table.empty.insert 0 lastId).insert 1 lastId
    windows := Table.empty.insert lastId
      { toplevel := { size := some (0, 0), maximized := false, fullscreen := false, activated := false }
        surface := 1, size := (1, 1), mode := .normal, lastMoveRequestAt := none }
    activeWindowId := some lastId }

theorem saturatingAdd_lastId : saturatingAdd lastId 1 = lastId := by decide

theorem blank_newToplevels (tx : List Message) :
    ((blank lastId tx).newToplevel 0 "" "").newToplevel 1 "" "" =
      sharedBy (tx ++ [.windowEvent (.created lastId { x := 0, y := 0, w := 1, h := 1 } "" ""),
        .windowEvent (.created lastId { x := 0, y := 0, w := 1, h := 1 } "" "")]) := by
  rw [blank_newToplevel]
  unfold Compositor.App.newToplevel Compositor.App.focusWindow
  simp [Compositor.RemoteWindow.geom, enqueueMessage, onlyWindow, blank, start, sharedBy,
    saturatingAdd_lastId]

theorem run_sharedBy (tx : List Message) : ∃ app window,
    (sharedBy tx).run paintShared = .ok app ∧
    app.windows.get? lastId = some window ∧ window.size = (1, 1) ∧
    app.tx = tx ++ [.windowEvent (.configured lastId { x := 0, y := 0, w := 2, h := 1 })] ++
      [.frameTile barTile] ++
      [.windowEvent (.configured lastId { x := 0, y := 0, w := 1, h := 1 })] ++ [.frameTile dotTile] ++
      [.frameTile barTile] := by
  exact ⟨_, _, rfl, rfl, rfl, rfl⟩

theorem mem_openClose {k : Nat} {call : Call} (h : call ∈ openClose k) :
    call = { env := bareEnv, event := .newToplevel 0 "" "" } ∨
      call = { env := bareEnv, event := .toplevelDestroyed 0 } := by
  obtain ⟨pair, hpair, hcall⟩ := List.mem_flatten.1 h
  rw [List.eq_of_mem_replicate hpair] at hcall
  simpa using hcall

theorem keepsRoles_shareWindow (k : Nat) (call : Call) (h : call ∈ openClose k ++ shareWindow) :
    KeepsRoles {0, 1} call := by
  obtain h | h := List.mem_append.1 h
  · obtain rfl | rfl := mem_openClose h
    · exact keepsRoles_of (fun _ _ => rfl) (.inl rfl)
    · exact keepsRoles_of (fun _ _ => rfl) trivial
  · simp only [shareWindow, paintShared, List.cons_append, List.nil_append, List.mem_cons,
        List.not_mem_nil, or_false] at h
    obtain rfl | rfl | rfl | rfl | rfl | rfl := h
    · exact keepsRoles_of (fun _ _ => rfl) (.inl rfl)
    · exact keepsRoles_of (fun _ _ => rfl) (.inr rfl)
    · exact keepsRoles_of (fun _ _ => rfl) (by simp [InRole])
    · exact keepsRoles_of (fun _ _ => rfl) trivial
    · exact keepsRoles_of (fun _ _ => rfl) trivial
    · exact keepsRoles_of (fun _ _ => rfl) trivial

theorem shm_shareWindow (k : Nat) (call : Call) (h : call ∈ openClose k ++ shareWindow)
    (buffer : BufferId) (b : ShmBuffer) (hb : call.env.shm buffer = some b) :
    b.size = barSize buffer := by
  obtain h | h := List.mem_append.1 h
  · obtain rfl | rfl := mem_openClose h
    · cases hb
    · cases hb
  · have henv : call.env = pairEnv := by
      simp only [shareWindow, paintShared, List.cons_append, List.nil_append, List.mem_cons,
        List.not_mem_nil, or_false] at h
      obtain rfl | rfl | rfl | rfl | rfl | rfl := h <;> rfl
    rw [henv] at hb
    cases hb
    exact barSize_eq buffer

/-- What the viewer hears of the shared window, but for the last tile. -/
def sharedMessages : List Message :=
  [.windowEvent (.created lastId { x := 0, y := 0, w := 1, h := 1 } "" ""),
    .windowEvent (.created lastId { x := 0, y := 0, w := 1, h := 1 } "" ""),
    .windowEvent (.configured lastId { x := 0, y := 0, w := 2, h := 1 }), .frameTile barTile,
    .windowEvent (.configured lastId { x := 0, y := 0, w := 1, h := 1 }), .frameTile dotTile]

theorem run_shareWindow (tx : List Message) : ∃ app window,
    (blank lastId tx).run shareWindow = .ok app ∧ app.windows.get? lastId = some window ∧
      window.size = (1, 1) ∧ app.tx = tx ++ (sharedMessages ++ [.frameTile barTile]) := by
  obtain ⟨app, window, hrun, hwindow, hsize, htx⟩ := run_sharedBy (tx ++
    [.windowEvent (.created lastId { x := 0, y := 0, w := 1, h := 1 } "" ""),
      .windowEvent (.created lastId { x := 0, y := 0, w := 1, h := 1 } "" "")])
  rw [← blank_newToplevels] at hrun
  refine ⟨app, window, ?_, hwindow, hsize, ?_⟩
  · rw [shareWindow, run_append rfl]
    exact hrun
  · rw [htx]
    simp [sharedMessages]

/-- The frame has the size of the window until then. -/
theorem trace_sharedMessages : ∃ sizes, Trace (Tells Drawable) (fun _ => none) sharedMessages sizes ∧
    sizes lastId = some (1, 1) := by
  have hbar : TileInside barTile (2, 1) := ⟨Nat.le_refl 2, Nat.le_refl 1⟩
  have hdot : TileInside dotTile (1, 1) := ⟨Nat.le_refl 1, Nat.le_refl 1⟩
  have hwide {sizes : Sizes} (h : sizes lastId = some (1, 1)) :
      Tells Drawable sizes (.windowEvent (.configured lastId { x := 0, y := 0, w := 2, h := 1 }))
        (Function.update sizes lastId (some (2, 1))) :=
    @Tells.configured Drawable sizes lastId (1, 1) (2, 1) h (show 1 ≤ 2 by omega) (Nat.le_refl 1)
      (drawable_barSize 8)
  have hnarrow {sizes : Sizes} (h : sizes lastId = some (2, 1)) :
      Tells Drawable sizes (.windowEvent (.configured lastId { x := 0, y := 0, w := 1, h := 1 }))
        (Function.update sizes lastId (some (1, 1))) :=
    @Tells.configured Drawable sizes lastId (2, 1) (1, 1) h (Nat.le_refl 1) (Nat.le_refl 1)
      drawable_one
  have hself {sizes : Sizes} (s : Compositor.Size) :
      Function.update sizes lastId (some s) lastId = some s := Function.update_self _ _ _
  exact ⟨_, .cons .created (.cons .created (.cons (hwide (hself _)) (.cons (.tile (hself _) hbar)
    (.cons (hnarrow (hself _)) (.cons (.tile (hself _) hdot) .nil))))), hself _⟩

/-- The kept buffer makes a frame of the window's size grow. -/
theorem barTile_grows {v : Viewer} {frame : FrameBuffer} (hframe : v.windows.lookup lastId = some frame)
    (hsize : frame.HasSize (1, 1)) : ∃ v' frame', v.handleMessage (.frameTile barTile) = .ok v' ∧
      v'.windows.lookup lastId = some frame' ∧ frame'.width = 2 := by
  have hw := hsize.width
  have hh := hsize.height
  have haccepted : barTile.Accepted := ⟨rfl, by decide, by decide, by decide⟩
  obtain ⟨frame', changed, hok, hpic⟩ := frame.picture_applyTile haccepted (by decide) (by decide)
    (by rw [hw]; decide) (by rw [hh]; decide) (by rw [hw, hh]; decide)
  refine ⟨{ v with windows := v.windows.insert lastId frame' }, frame', ?_, Finmap.lookup_insert _, ?_⟩
  · have hid : v.windows.lookup barTile.id = some frame := hframe
    simp only [handleMessage, hid, hok]
    rfl
  · have hwidth := congrArg Picture.width hpic
    exact hwidth.trans (by show max (max frame.width 2) 1 = 2; rw [hw]; rfl)

/-- When the ids are used up two surfaces have one window. The second's buffer is kept for it, the
first's buffer gives it its size, and the popup that goes has the kept buffer painted: the frame grows
beyond the window. -/
theorem shared_window_grows : ∃ calls app v window frame, OneToplevel ∅ calls ∧
    (∀ call ∈ calls, KeepsRoles {0, 1} call) ∧ (∀ call ∈ calls, Steady barSize call.env) ∧
    (start ⟨"vbox", 640, 480⟩).CopiesSucceed calls ∧
    (start ⟨"vbox", 640, 480⟩).run calls = .ok app ∧ empty.handleAll app.tx = .ok v ∧
    app.windows.get? lastId = some window ∧ v.windows.lookup lastId = some frame ∧
    frame.width ≠ window.size.1.toNat := by
  obtain ⟨k, hk⟩ : ∃ k : Nat, k = 2 ^ 64 - 2 := ⟨_, rfl⟩
  obtain ⟨n, tx, hrun, hn, v₀, hv₀⟩ := run_blank k 1 [] ⟨empty, rfl⟩
  obtain rfl : n = lastId := by
    apply UInt64.toNat_inj.1
    have hone : (1 : UInt64).toNat = 1 := rfl
    have hlast : lastId.toNat = 2 ^ 64 - 1 := rfl
    rw [hn, hone, hlast]
    omega
  obtain ⟨app, window, hshared, hwindow, hsize, htx⟩ := run_shareWindow tx
  -- the viewer, before the last tile and after it
  obtain ⟨sizes, htrace, hlast⟩ := trace_sharedMessages
  obtain ⟨v₁, hv₁, hfollows⟩ := runs_of_trace htrace (follows_none v₀)
  obtain ⟨-, frame, hframe, hone⟩ := hfollows lastId _ hlast
  obtain ⟨v, frame', hv, hframe', hgrown⟩ := barTile_grows hframe hone
  refine ⟨openClose k ++ shareWindow, app, v, window, frame', ?_,
    keepsRoles_shareWindow k, shm_shareWindow k, ?_, ?_, ?_, hwindow, hframe', ?_⟩
  · refine oneToplevel_openClose k shareWindow ?_
    simp [shareWindow, paintShared, OneToplevel, MayOpen, toplevels]
  · refine copiesSucceed_openClose k _ fun app' _ => ?_
    exact ⟨trivial, fun _ _ => ⟨trivial, fun _ _ => ⟨trivial, fun _ _ => ⟨fun _ _ => ⟨_, rfl⟩,
      fun _ _ => ⟨fun _ _ => ⟨_, rfl⟩, fun _ _ => ⟨trivial, fun _ _ => trivial⟩⟩⟩⟩⟩⟩
  · have hstart : start ⟨"vbox", 640, 480⟩ = blank 1 [] := rfl
    rw [hstart, run_append hrun]
    exact hshared
  · rw [htx, handleAll_append hv₀, handleAll_append hv₁]
    show v₁.handleMessage (.frameTile barTile) >>= _ = _
    rw [hv]
    rfl
  · rw [hgrown, hsize]
    decide

end Viewer
end VBox

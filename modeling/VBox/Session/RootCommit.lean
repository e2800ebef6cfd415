import VBox.Proto.Message

/-!
# Session.RootCommit

What the compositor sends for a toplevel and the commits on its root surface (`new_toplevel`,
`resize_root_window` and `commit` in `crates/server/src/wayland_session/mod.rs`).

`sent_eq` puts the messages in closed form: they are those of `sentTags`, where every message is
named by the commit it belongs to.
-/

namespace VBox

open ByteCodec

/-- The buffer of a root commit, converted to RGBA by `copy_shm_buffer`: not empty, rows without
gaps, and small enough for the `total_len` of its datagrams. -/
structure RootBuffer where
  width : UInt32
  height : UInt32
  bytes : Bytes
  width_pos : 0 < width.toNat
  height_pos : 0 < height.toNat
  bytes_length : bytes.length = 4 * width.toNat * height.toNat
  bytes_lt : 4 * width.toNat * height.toNat < 2 ^ 32

def RootBuffer.tile (b : RootBuffer) (id : UInt64) : FrameTile :=
  { id, x := 0, y := 0, w := b.width, h := b.height, stride := b.width * 4, encoding := .rawRgba,
    bytes := b.bytes }

def nonzeroSize (size : UInt32 × UInt32) : UInt32 × UInt32 := (max size.1 1, max size.2 1)

structure RemoteWindow where
  id : UInt64
  size : UInt32 × UInt32

def RemoteWindow.geom (window : RemoteWindow) : WindowGeometry :=
  { x := 0, y := 0, w := window.size.1, h := window.size.2 }

def resizeRootWindow (window : RemoteWindow) (width height : UInt32) :
    RemoteWindow × Option WindowGeometry :=
  let newSize := nonzeroSize (width, height)
  if window.size = newSize then (window, none)
  else
    let window := { window with size := newSize }
    (window, some window.geom)

def newToplevel (id : UInt64) (title appId : String) : RemoteWindow × Message :=
  let window : RemoteWindow := { id, size := (1, 1) }
  (window, .windowEvent (.created id window.geom title appId))

/-- A commit on the root surface: the new geometry, if it changed, and then the tile. -/
def commitRoot (window : RemoteWindow) (buffer : RootBuffer) : RemoteWindow × List Message :=
  let tile := buffer.tile window.id
  match resizeRootWindow window tile.w tile.h with
  | (window, some geom) =>
    (window, [.windowEvent (.configured window.id geom), .frameTile tile])
  | (window, none) => (window, [.frameTile tile])

def commitAll : RemoteWindow → List RootBuffer → List Message
  | _, [] => []
  | window, buffer :: rest =>
    (commitRoot window buffer).2 ++ commitAll (commitRoot window buffer).1 rest

/-- Everything sent for a new toplevel and its commits, in order. -/
def sent (id : UInt64) (title appId : String) (buffers : List RootBuffer) : List Message :=
  (newToplevel id title appId).2 :: commitAll (newToplevel id title appId).1 buffers

/-! ## The messages by commit -/

inductive Tag where
  | created
  | configured (commit : Nat)
  | tile (commit : Nat)
  deriving DecidableEq

/-- The size the compositor has for the window after `k` commits. -/
def sizeAt (buffers : List RootBuffer) : Nat → UInt32 × UInt32
  | 0 => (1, 1)
  | k + 1 =>
    match buffers[k]? with
    | some b => (b.width, b.height)
    | none => (1, 1)

/-- Commit `k` changes the size of the window. -/
def Changed (buffers : List RootBuffer) (k : Nat) : Prop := sizeAt buffers k ≠ sizeAt buffers (k + 1)

instance (buffers : List RootBuffer) (k : Nat) : Decidable (Changed buffers k) :=
  inferInstanceAs (Decidable (¬ _))

/-- Commit `k` makes the window smaller in one direction at least. -/
def Shrinks (buffers : List RootBuffer) (k : Nat) : Prop :=
  (sizeAt buffers (k + 1)).1.toNat < (sizeAt buffers k).1.toNat ∨
    (sizeAt buffers (k + 1)).2.toNat < (sizeAt buffers k).2.toNat

instance (buffers : List RootBuffer) (k : Nat) : Decidable (Shrinks buffers k) :=
  inferInstanceAs (Decidable (_ ∨ _))

theorem Shrinks.changed {buffers : List RootBuffer} {k : Nat} (h : Shrinks buffers k) :
    Changed buffers k := by
  intro heq
  rw [Shrinks, heq] at h
  omega

def commitTags (buffers : List RootBuffer) (k : Nat) : List Tag :=
  (if Changed buffers k then [.configured k] else []) ++ [.tile k]

def sentTags (buffers : List RootBuffer) : List Tag :=
  .created :: (List.range buffers.length).flatMap (commitTags buffers)

/-- The message of a tag. -/
def Tag.message (id : UInt64) (title appId : String) (buffers : List RootBuffer) :
    Tag → Option Message
  | .created =>
    some (.windowEvent (.created id (RemoteWindow.geom { id, size := (1, 1) }) title appId))
  | .configured k =>
    some (.windowEvent (.configured id (RemoteWindow.geom { id, size := sizeAt buffers (k + 1) })))
  | .tile k => buffers[k]?.map fun b => .frameTile (b.tile id)

theorem max_one_eq {x : UInt32} (h : 0 < x.toNat) : max x 1 = x := by
  show (if x ≤ 1 then 1 else x) = x
  split
  · rename_i hle
    rw [UInt32.le_iff_toNat_le] at hle
    apply UInt32.toNat_inj.1
    have : (1 : UInt32).toNat = 1 := rfl
    omega
  · rfl

theorem RootBuffer.nonzeroSize_eq (b : RootBuffer) :
    nonzeroSize (b.width, b.height) = (b.width, b.height) := by
  rw [nonzeroSize, max_one_eq b.width_pos, max_one_eq b.height_pos]

theorem sizeAt_succ {buffers : List RootBuffer} {k : Nat} {b : RootBuffer}
    (h : buffers[k]? = some b) : sizeAt buffers (k + 1) = (b.width, b.height) := by
  rw [sizeAt, h]

/-- One commit sends the messages of its tags and leaves the window at its size. -/
theorem commitRoot_eq {id : UInt64} (title appId : String) {buffers : List RootBuffer} {k : Nat}
    {b : RootBuffer} (h : buffers[k]? = some b) :
    commitRoot { id, size := sizeAt buffers k } b =
      ({ id, size := sizeAt buffers (k + 1) },
        (commitTags buffers k).filterMap (Tag.message id title appId buffers)) := by
  have hsize : nonzeroSize (b.width, b.height) = sizeAt buffers (k + 1) := by
    rw [b.nonzeroSize_eq, sizeAt_succ h]
  simp only [commitRoot, resizeRootWindow, commitTags, RootBuffer.tile, hsize]
  by_cases hc : Changed buffers k
  · rw [if_neg hc, if_pos hc]
    simp [h, Tag.message, RootBuffer.tile]
  · have heq : sizeAt buffers k = sizeAt buffers (k + 1) := Decidable.not_not.1 hc
    rw [if_pos heq, if_neg hc]
    simp [h, Tag.message, RootBuffer.tile, heq]

theorem commitAll_eq (id : UInt64) (title appId : String) (buffers : List RootBuffer) :
    ∀ {rest : List RootBuffer} {k : Nat}, buffers.drop k = rest →
      commitAll { id, size := sizeAt buffers k } rest =
        ((List.range' k rest.length).flatMap (commitTags buffers)).filterMap
          (Tag.message id title appId buffers) := by
  intro rest
  induction rest with
  | nil => intro k _; rfl
  | cons b rest ih =>
    intro k hk
    have hb : buffers[k]? = some b := by
      rw [← List.head?_drop, hk]
      rfl
    have hrest : buffers.drop (k + 1) = rest := by
      rw [← List.tail_drop, hk]
      rfl
    rw [commitAll, commitRoot_eq title appId hb, ih hrest, List.length_cons, List.range'_succ,
      List.flatMap_cons, List.filterMap_append]

theorem sent_eq (id : UInt64) (title appId : String) (buffers : List RootBuffer) :
    sent id title appId buffers =
      (sentTags buffers).filterMap (Tag.message id title appId buffers) := by
  have := commitAll_eq id title appId buffers (k := 0) rfl
  rw [sent, sentTags, List.filterMap_cons, List.range_eq_range']
  exact congrArg _ this

end VBox

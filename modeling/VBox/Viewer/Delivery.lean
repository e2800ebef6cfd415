import Mathlib.Data.List.Infix
import VBox.Session.RootCommit
import VBox.Viewer.App

/-!
# Viewer.Delivery

Over QUIC the window events of a window travel on its stream and its tiles as datagrams, so the two
sequences reach the viewer in order each, but interleaved in any way.

`expected s k` is the picture after the window events of the first `s` commits and the first `k`
tiles, as long as the two do not get too far apart (`Near`): it has the size of the commit that is
further on, and shows the tiles since the last commit that made the window smaller. `Near` and the
picture are kept by each event and each tile that is delivered `InOrder`.

* `picture_of_delivery_in_order`: such a delivery ends in the same picture as the order of sending.
-/

namespace VBox

open ByteCodec

def Tag.isTile : Tag → Bool
  | .tile _ => true
  | _ => false

/-- The tags of window events. -/
def Tag.isStream (t : Tag) : Bool := !t.isTile

/-- The orders of delivery that do not matter: a tile comes after `Created`, after every
`Configured` sent before it that made the window smaller, and after every other one sent before it
but the last; a `Configured` that made the window smaller comes after every tile sent before it. -/
structure InOrder (buffers : List RootBuffer) (deliveries : List Tag) : Prop where
  tile_created : ∀ before k after, deliveries = before ++ .tile k :: after → .created ∈ before
  tile_shrinks : ∀ before k after, deliveries = before ++ .tile k :: after →
    ∀ c ≤ k, Shrinks buffers c → .configured c ∈ before
  tile_changed : ∀ before k after, deliveries = before ++ .tile k :: after →
    ∀ c c', c < c' → c' ≤ k → Changed buffers c → Changed buffers c' → .configured c ∈ before
  shrinks_tile : ∀ before c after, deliveries = before ++ .configured c :: after →
    Shrinks buffers c → ∀ k < c, .tile k ∈ before

theorem InOrder.init {buffers : List RootBuffer} {pre : List Tag} {m : Tag}
    (h : InOrder buffers (pre ++ [m])) : InOrder buffers pre := by
  refine ⟨fun before k after heq => ?_, fun before k after heq => ?_, fun before k after heq => ?_,
    fun before c after heq => ?_⟩
  · exact h.tile_created before k (after ++ [m]) (by simp [heq])
  · exact h.tile_shrinks before k (after ++ [m]) (by simp [heq])
  · exact h.tile_changed before k (after ++ [m]) (by simp [heq])
  · exact h.shrinks_tile before c (after ++ [m]) (by simp [heq])

/-! ## Sizes -/

section Sizes

variable {buffers : List RootBuffer}

variable (buffers) in
theorem sizeAt_spec (k : Nat) :
    0 < (sizeAt buffers k).1.toNat ∧ 0 < (sizeAt buffers k).2.toNat ∧
      (sizeAt buffers k).1.toNat * (sizeAt buffers k).2.toNat < 2 ^ 32 := by
  cases k with
  | zero => simp [sizeAt]
  | succ k =>
    cases h : buffers[k]? with
    | none => simp [sizeAt, h]
    | some b =>
      rw [sizeAt_succ h]
      refine ⟨b.width_pos, b.height_pos, ?_⟩
      have := b.bytes_lt
      rw [Nat.mul_assoc] at this
      show b.width.toNat * b.height.toNat < 2 ^ 32
      omega

variable (buffers) in
theorem sizeAt_mono {a b : Nat} (hab : a ≤ b) (h : ∀ c, a ≤ c → c < b → ¬ Shrinks buffers c) :
    (sizeAt buffers a).1.toNat ≤ (sizeAt buffers b).1.toNat ∧
      (sizeAt buffers a).2.toNat ≤ (sizeAt buffers b).2.toNat := by
  induction b, hab using Nat.le_induction with
  | base => exact ⟨Nat.le_refl _, Nat.le_refl _⟩
  | succ b hab ih =>
    have hprev := ih fun c hc hcb => h c hc (by omega)
    have hlast := h b hab (by omega)
    simp only [Shrinks, not_or, Nat.not_lt] at hlast
    omega

theorem sizeAt_eq {a b : Nat} (hab : a ≤ b) (h : ∀ c, a ≤ c → c < b → ¬ Changed buffers c) :
    sizeAt buffers a = sizeAt buffers b := by
  induction b, hab using Nat.le_induction with
  | base => rfl
  | succ b hab ih =>
    rw [ih fun c hc hcb => h c hc (by omega)]
    exact Decidable.not_not.1 (h b hab (by omega))

/-- The last of the first `s` commits that made the window smaller. -/
def lastShrink (buffers : List RootBuffer) : Nat → Nat
  | 0 => 0
  | s + 1 => if Shrinks buffers s then s else lastShrink buffers s

theorem lastShrink_le (s : Nat) : lastShrink buffers s ≤ s := by
  induction s with
  | zero => exact Nat.le_refl 0
  | succ s ih =>
    rw [lastShrink]
    split <;> omega

theorem not_shrinks_of_lastShrink_lt {s c : Nat} (h : lastShrink buffers s < c) (hc : c < s) :
    ¬ Shrinks buffers c := by
  induction s with
  | zero => omega
  | succ s ih =>
    rw [lastShrink] at h
    split at h
    · omega
    · rename_i hs
      by_cases hcs : c = s
      · rwa [hcs]
      · exact ih h (by omega)

theorem lastShrink_eq {a b : Nat} (hab : a ≤ b) (h : ∀ c, a ≤ c → c < b → ¬ Shrinks buffers c) :
    lastShrink buffers a = lastShrink buffers b := by
  induction b, hab using Nat.le_induction with
  | base => rfl
  | succ b hab ih =>
    rw [lastShrink, if_neg (h b hab (by omega)), ih fun c hc hcb => h c hc (by omega)]

end Sizes

/-! ## The expected picture -/

/-- What the tiles `base, .., k - 1` show on an empty picture. -/
def shown (id : UInt64) (buffers : List RootBuffer) (base : Nat) : Nat → Nat → Nat → UInt32
  | 0 => fun _ _ => transparentPixel
  | k + 1 =>
    if k < base then fun _ _ => transparentPixel
    else
      match buffers[k]? with
      | none => shown id buffers base k
      | some b =>
        (Picture.overlay { width := 0, height := 0, pixel := shown id buffers base k } (b.tile id)).pixel

def expected (id : UInt64) (buffers : List RootBuffer) (s k : Nat) : Picture :=
  { width := (sizeAt buffers (max s k)).1.toNat
    height := (sizeAt buffers (max s k)).2.toNat
    pixel := shown id buffers (lastShrink buffers s) k }

/-- The window events of the first `s` commits and the first `k` tiles have been delivered, and
neither is too far ahead. -/
structure Near (buffers : List RootBuffer) (s k : Nat) : Prop where
  base : lastShrink buffers s ≤ k
  noShrink : ∀ c, s ≤ c → c < k → ¬ Shrinks buffers c
  oneChange : ∀ c c', s ≤ c → c < c' → c' < k → Changed buffers c → ¬ Changed buffers c'

section Expected

variable {id : UInt64} {buffers : List RootBuffer} {s c k : Nat}

theorem shown_of_le {base : Nat} (h : k ≤ base) :
    shown id buffers base k = fun _ _ => transparentPixel := by
  cases k with
  | zero => rfl
  | succ k => rw [shown, if_pos (by omega)]

theorem near_self (n : Nat) : Near buffers n n :=
  ⟨lastShrink_le n, fun c hc hck => by omega, fun c c' hc hcc hck => by omega⟩

/-- Commits that change nothing have no window event. -/
theorem expected_reindex (hsc : s ≤ c) (h : ∀ d, s ≤ d → d < c → ¬ Changed buffers d) :
    expected id buffers s k = expected id buffers c k := by
  have hshrink : ∀ d, s ≤ d → d < c → ¬ Shrinks buffers d :=
    fun d hd hdc hs => h d hd hdc hs.changed
  have hsize : sizeAt buffers (max s k) = sizeAt buffers (max c k) :=
    sizeAt_eq (by omega) fun d hd hdc => h d (by omega) (by omega)
  rw [expected, expected, hsize, lastShrink_eq hsc hshrink]

theorem Near.reindex (hn : Near buffers s k) (hsc : s ≤ c)
    (h : ∀ d, s ≤ d → d < c → ¬ Changed buffers d) : Near buffers c k := by
  refine ⟨?_, fun d hd hdk => hn.noShrink d (by omega) hdk,
    fun d d' hd hdd hdk => hn.oneChange d d' (by omega) hdd hdk⟩
  rw [← lastShrink_eq hsc fun d hd hdc hs => h d hd hdc hs.changed]
  exact hn.base

/-- One `Configured`. -/
theorem Near.configured (id : UInt64) (hn : Near buffers c k) (hc : Changed buffers c)
    (hshrink : Shrinks buffers c → c ≤ k) :
    (expected id buffers c k).resizeTo (sizeAt buffers (c + 1)).1.toNat
        (sizeAt buffers (c + 1)).2.toNat = expected id buffers (c + 1) k ∧
      Near buffers (c + 1) k := by
  by_cases hs : Shrinks buffers c
  · -- every earlier tile is there and no later one: the picture is cleared
    have hk : k = c := by
      have hle := hshrink hs
      have hge : ¬ c < k := fun hlt => hn.noShrink c (Nat.le_refl _) hlt hs
      omega
    subst hk
    have hbase : lastShrink buffers (k + 1) = k := if_pos hs
    have hcond : (sizeAt buffers (k + 1)).1.toNat < (expected id buffers k k).width ∨
        (sizeAt buffers (k + 1)).2.toNat < (expected id buffers k k).height := by
      simpa only [expected, Nat.max_self, Shrinks] using hs
    refine ⟨?_, ⟨by omega, fun d hd hdk => by omega, fun d d' hd hdd hdk => by omega⟩⟩
    rw [Picture.resizeTo, if_pos hcond, expected, hbase, shown_of_le (Nat.le_refl _),
      Nat.max_eq_left (Nat.le_succ k)]
  · have hbase : lastShrink buffers (c + 1) = lastShrink buffers c := if_neg hs
    have hnone : ∀ d, c < d → d < k → ¬ Changed buffers d :=
      fun d hd hdk => hn.oneChange c d (Nat.le_refl _) hd hdk hc
    -- a tile of the new size has come first, or none has
    have hsize : sizeAt buffers (max (c + 1) k) = sizeAt buffers (c + 1) :=
      (sizeAt_eq (Nat.le_max_left _ _) fun d hd hdk => hnone d (by omega) (by omega)).symm
    have hmono := sizeAt_mono buffers (a := max c k) (b := max (c + 1) k) (by omega)
      fun d hd hdk => by
        have : d = c := by omega
        rwa [this]
    have hcond : ¬ ((sizeAt buffers (c + 1)).1.toNat < (expected id buffers c k).width ∨
        (sizeAt buffers (c + 1)).2.toNat < (expected id buffers c k).height) := by
      rw [hsize] at hmono
      simp only [expected]
      omega
    refine ⟨?_, ⟨by rw [hbase]; exact hn.base, fun d hd hdk => hn.noShrink d (by omega) hdk,
      fun d d' hd hdd hdk _ => hnone d' (by omega) hdk⟩⟩
    rw [Picture.resizeTo, if_neg hcond, expected, expected, hsize, hbase]

/-- One tile. -/
theorem Near.tile (id : UInt64) (hn : Near buffers s k) {b : RootBuffer} (hb : buffers[k]? = some b)
    (hshrink : ∀ c ≤ k, Shrinks buffers c → c < s)
    (hchanged : ∀ c c', c < c' → c' ≤ k → Changed buffers c → Changed buffers c' → c < s) :
    (expected id buffers s k).overlay (b.tile id) = expected id buffers s (k + 1) ∧
      Near buffers s (k + 1) := by
  have hnext := sizeAt_succ hb
  obtain ⟨hwpos, hhpos, -⟩ := sizeAt_spec buffers (max s (k + 1))
  -- both the size so far and the size of the tile are at most the one that is further on
  have hcur := sizeAt_mono buffers (a := max s k) (b := max s (k + 1)) (by omega)
    fun c hc hck hs => absurd (hshrink c (by omega) hs) (by omega)
  have htile := sizeAt_mono buffers (a := k + 1) (b := max s (k + 1)) (by omega)
    fun c hc hcs => not_shrinks_of_lastShrink_lt (s := s) (by have := hn.base; omega) (by omega)
  rw [hnext] at htile
  have hlast : sizeAt buffers (max s (k + 1)) = sizeAt buffers (max s k) ∨
      sizeAt buffers (max s (k + 1)) = (b.width, b.height) := by
    by_cases hks : k < s
    · exact .inl (by congr 1; omega)
    · rw [← hnext]
      exact .inr (by congr 1; omega)
  refine ⟨Picture.ext ?_ ?_ ?_, ?_⟩
  · simp only [Picture.overlay, expected, RootBuffer.tile, UInt32.toNat_zero, Nat.zero_add]
    obtain h | h := hlast <;> rw [h] at hcur htile hwpos ⊢ <;> simp only at hcur htile hwpos ⊢ <;>
      omega
  · simp only [Picture.overlay, expected, RootBuffer.tile, UInt32.toNat_zero, Nat.zero_add]
    obtain h | h := hlast <;> rw [h] at hcur htile hhpos ⊢ <;> simp only at hcur htile hhpos ⊢ <;>
      omega
  · have hbase := hn.base
    show _ = shown id buffers (lastShrink buffers s) (k + 1)
    rw [shown, if_neg (by omega), hb]
    rfl
  · refine ⟨Nat.le_succ_of_le hn.base, fun c hc hck hs => ?_, fun c c' hc hcc hck h h' => ?_⟩
    · exact absurd (hshrink c (by omega) hs) (by omega)
    · exact absurd (hchanged c c' hcc (by omega) h h') (by omega)

end Expected

/-! ## Tags in order -/

theorem prefix_filter_range {p : Nat → Bool} {n c : Nat} {l : List Nat}
    (h : l ++ [c] <+: (List.range n).filter p) :
    l = (List.range c).filter p ∧ p c ∧ c < n := by
  induction n with
  | zero => simp at h
  | succ n ih =>
    rw [List.range_succ, List.filter_append] at h
    by_cases hp : p n
    · rw [List.filter_cons_of_pos hp, List.filter_nil, List.prefix_concat_iff] at h
      obtain h | h := h
      · obtain ⟨rfl, hc⟩ := List.append_inj' h rfl
        obtain rfl : c = n := by simpa using hc
        exact ⟨rfl, hp, Nat.lt_succ_self _⟩
      · obtain ⟨h1, h2, h3⟩ := ih h
        exact ⟨h1, h2, by omega⟩
    · rw [List.filter_cons_of_neg hp, List.filter_nil, List.append_nil] at h
      obtain ⟨h1, h2, h3⟩ := ih h
      exact ⟨h1, h2, by omega⟩

/-- Two counts of commits with the same changes below them. -/
theorem no_change_between {p : Nat → Bool} {s c : Nat}
    (h : (List.range s).filter p = (List.range c).filter p) :
    ∀ d, s ≤ d → d < c → ¬ p d := by
  intro d hsd hdc hp
  have : d ∈ (List.range s).filter p := by
    rw [h]
    exact List.mem_filter.2 ⟨List.mem_range.2 hdc, hp⟩
  have := List.mem_range.1 (List.mem_filter.1 this).1
  omega

section Tags

variable (buffers : List RootBuffer)

def configuredTags (s : Nat) : List Tag :=
  ((List.range s).filter fun c => Changed buffers c).map .configured

theorem filter_flatMap_commitTags (n : Nat) :
    ((List.range n).flatMap (commitTags buffers)).filter Tag.isStream = configuredTags buffers n ∧
      ((List.range n).flatMap (commitTags buffers)).filter Tag.isTile = (List.range n).map .tile := by
  induction n with
  | zero => exact ⟨rfl, rfl⟩
  | succ n ih =>
    rw [List.range_succ, List.flatMap_append, List.filter_append, List.filter_append, ih.1, ih.2,
      configuredTags, configuredTags, List.range_succ, List.filter_append, List.map_append,
      List.map_append]
    by_cases hc : Changed buffers n <;>
      simp [commitTags, hc, Tag.isStream, Tag.isTile]

theorem filter_isStream_sentTags :
    (sentTags buffers).filter Tag.isStream = .created :: configuredTags buffers buffers.length := by
  rw [sentTags, List.filter_cons_of_pos rfl, (filter_flatMap_commitTags buffers _).1]

theorem filter_isTile_sentTags :
    (sentTags buffers).filter Tag.isTile = (List.range buffers.length).map .tile := by
  rw [sentTags, List.filter_cons_of_neg (by simp [Tag.isTile]), (filter_flatMap_commitTags buffers _).2]

variable {buffers}

theorem mem_configuredTags {s c : Nat} :
    .configured c ∈ configuredTags buffers s ↔ c < s ∧ Changed buffers c := by
  simp [configuredTags]

/-- The window event that comes next on the stream. -/
theorem configuredTags_next {s c : Nat}
    (h : configuredTags buffers s ++ [.configured c] <+: configuredTags buffers buffers.length) :
    s ≤ c ∧ c < buffers.length ∧ Changed buffers c ∧
      (∀ d, s ≤ d → d < c → ¬ Changed buffers d) ∧
      configuredTags buffers (c + 1) = configuredTags buffers s ++ [.configured c] := by
  have hprefix : ((List.range s).filter fun c => Changed buffers c) ++ [c] <+:
      (List.range buffers.length).filter fun c => Changed buffers c := by
    apply (List.prefix_map_iff_of_injective (f := Tag.configured) fun _ _ h => by cases h; rfl).1
    rw [List.map_append]
    exact h
  obtain ⟨hsame, hc, hcn⟩ := prefix_filter_range hprefix
  refine ⟨?_, hcn, by simpa using hc, by simpa using no_change_between hsame, ?_⟩
  · by_contra hlt
    have hmem : c ∈ (List.range s).filter fun c => Changed buffers c :=
      List.mem_filter.2 ⟨List.mem_range.2 (by omega), hc⟩
    rw [hsame] at hmem
    exact absurd (List.mem_range.1 (List.mem_filter.1 hmem).1) (Nat.lt_irrefl c)
  · have hlast : [c].filter (fun c => decide (Changed buffers c)) = [c] :=
      List.filter_cons_of_pos hc
    rw [configuredTags, configuredTags, hsame, List.range_succ, List.filter_append, hlast,
      List.map_append]
    rfl

theorem tile_next {k j n : Nat}
    (h : (List.range k).map Tag.tile ++ [.tile j] <+: (List.range n).map Tag.tile) :
    j = k ∧ k < n := by
  have hprefix : List.range k ++ [j] <+: List.range n := by
    apply (List.prefix_map_iff_of_injective (f := Tag.tile) fun _ _ h => by cases h; rfl).1
    rw [List.map_append]
    exact h
  have hlen := hprefix.length_le
  simp only [List.length_append, List.length_range, List.length_singleton] at hlen
  have hget := List.prefix_iff_getElem?.1 hprefix k (by simp)
  rw [List.getElem?_range (by omega)] at hget
  exact ⟨by simpa using hget.symm, by omega⟩

end Tags

/-! ## Runs -/

section Run

variable {id : UInt64} (title appId : String) {buffers : List RootBuffer}

/-- The viewer after a `Configured`. -/
theorem shows_configured {v : Viewer} {c k : Nat} (hv : v.Shows id (expected id buffers c k))
    (hn : Near buffers c k) (hc : Changed buffers c) (hshrink : Shrinks buffers c → c ≤ k) :
    ∃ v', v.handleAll ([Tag.configured c].filterMap (Tag.message id title appId buffers)) = .ok v' ∧
      v'.Shows id (expected id buffers (c + 1) k) ∧ Near buffers (c + 1) k := by
  obtain ⟨hpic, hnext⟩ := hn.configured id hc hshrink
  obtain ⟨hw, hh, harea⟩ := sizeAt_spec buffers (c + 1)
  obtain ⟨v', hok, hv'⟩ := hv.configured
    (RemoteWindow.geom { id, size := sizeAt buffers (c + 1) }) hw hh
    (by simp only [RemoteWindow.geom]; omega)
  rw [← hpic]
  exact ⟨v', Viewer.handleAll_cons hok, hv', hnext⟩

theorem RootBuffer.tile_accepted (b : RootBuffer) : (b.tile id).Accepted := by
  have hlt := b.bytes_lt
  have hpos := b.height_pos
  have hle : 4 * b.width.toNat * 1 ≤ 4 * b.width.toNat * b.height.toNat := Nat.mul_le_mul_left _ hpos
  have hstride : (b.width * 4).toNat = 4 * b.width.toNat := by
    rw [UInt32.toNat_mul]
    show b.width.toNat * 4 % 2 ^ 32 = _
    omega
  constructor
  · rfl
  · show b.width.toNat * 4 ≤ (b.width * 4).toNat
    omega
  · show (b.width * 4).toNat * b.height.toNat < 2 ^ 32
    rw [hstride]
    exact hlt
  · show (b.width * 4).toNat * b.height.toNat ≤ b.bytes.length
    rw [hstride, b.bytes_length]

/-- The viewer after a tile. -/
theorem shows_tile {v : Viewer} {s k : Nat} (hv : v.Shows id (expected id buffers s k))
    (hn : Near buffers s k) (hk : k < buffers.length)
    (hshrink : ∀ c ≤ k, Shrinks buffers c → c < s)
    (hchanged : ∀ c c', c < c' → c' ≤ k → Changed buffers c → Changed buffers c' → c < s) :
    ∃ v', v.handleAll ([Tag.tile k].filterMap (Tag.message id title appId buffers)) = .ok v' ∧
      v'.Shows id (expected id buffers s (k + 1)) ∧ Near buffers s (k + 1) := by
  have hb : buffers[k]? = some buffers[k] := List.getElem?_eq_getElem hk
  obtain ⟨hpic, hnext⟩ := hn.tile id hb hshrink hchanged
  have hmsg : [Tag.tile k].filterMap (Tag.message id title appId buffers) =
      [.frameTile (buffers[k].tile id)] := by
    simp [Tag.message, hb]
  obtain ⟨-, -, harea⟩ := sizeAt_spec buffers (max s (k + 1))
  have hw := (sizeAt buffers (max s k)).1.toNat_lt
  have hh := (sizeAt buffers (max s k)).2.toNat_lt
  have hbw := buffers[k].width.toNat_lt
  have hbh := buffers[k].height.toNat_lt
  obtain ⟨v', hok, hv'⟩ := Viewer.Shows.frameTile (buffers[k].tile id) hv
    buffers[k].tile_accepted (by simpa [RootBuffer.tile] using hbw)
    (by simpa [RootBuffer.tile] using hbh) hw hh (by rw [hpic]; exact harea)
  rw [hpic] at hv'
  refine ⟨v', ?_, hv', hnext⟩
  rw [hmsg]
  exact Viewer.handleAll_cons hok

/-- How far a delivery has come, and what the viewer shows then. -/
structure Progress (id : UInt64) (buffers : List RootBuffer) (delivered : List Tag) (v : Viewer)
    (s k : Nat) : Prop where
  stream : delivered.filter Tag.isStream = .created :: configuredTags buffers s
  tiles : delivered.filter Tag.isTile = (List.range k).map .tile
  le : s ≤ buffers.length
  near : Near buffers s k
  shows : v.Shows id (expected id buffers s k)

theorem Progress.configured_lt {delivered : List Tag} {v : Viewer} {s k c : Nat}
    (h : Progress id buffers delivered v s k) (hc : .configured c ∈ delivered) : c < s := by
  have : Tag.configured c ∈ delivered.filter Tag.isStream := List.mem_filter.2 ⟨hc, rfl⟩
  rw [h.stream] at this
  simp only [List.mem_cons, reduceCtorEq, false_or] at this
  exact (mem_configuredTags.1 this).1

theorem Progress.tile_lt {delivered : List Tag} {v : Viewer} {s k j : Nat}
    (h : Progress id buffers delivered v s k) (hj : .tile j ∈ delivered) : j < k := by
  have : Tag.tile j ∈ delivered.filter Tag.isTile := List.mem_filter.2 ⟨hj, rfl⟩
  rw [h.tiles] at this
  simpa using this

theorem Progress.next_configured {delivered : List Tag} {v : Viewer} {s k c : Nat}
    (h : Progress id buffers delivered v s k)
    (hstream : configuredTags buffers s ++ [.configured c] <+:
      configuredTags buffers buffers.length)
    (horder : InOrder buffers (delivered ++ [.configured c])) :
    ∃ v', v.handleAll ([Tag.configured c].filterMap (Tag.message id title appId buffers)) = .ok v' ∧
      Progress id buffers (delivered ++ [.configured c]) v' (c + 1) k := by
  obtain ⟨hsc, hcn, hc, hno, htags⟩ := configuredTags_next hstream
  have hshows := h.shows
  rw [expected_reindex hsc hno] at hshows
  have hshrink : Shrinks buffers c → c ≤ k := by
    intro hs
    by_contra hlt
    have := h.tile_lt (horder.shrinks_tile delivered c [] rfl hs k (by omega))
    omega
  obtain ⟨v', hok, hv', hn'⟩ := shows_configured title appId hshows (h.near.reindex hsc hno) hc hshrink
  refine ⟨v', hok, ⟨?_, ?_, hcn, hn', hv'⟩⟩
  · rw [List.filter_append, h.stream, htags]
    rfl
  · rw [List.filter_append, h.tiles]
    simp [Tag.isTile]

theorem Progress.next_tile {delivered : List Tag} {v : Viewer} {s k : Nat}
    (h : Progress id buffers delivered v s k) (hk : k < buffers.length)
    (horder : InOrder buffers (delivered ++ [.tile k])) :
    ∃ v', v.handleAll ([Tag.tile k].filterMap (Tag.message id title appId buffers)) = .ok v' ∧
      Progress id buffers (delivered ++ [.tile k]) v' s (k + 1) := by
  have hshrink : ∀ c ≤ k, Shrinks buffers c → c < s := fun c hc hs =>
    h.configured_lt (horder.tile_shrinks delivered k [] rfl c hc hs)
  have hchanged : ∀ c c', c < c' → c' ≤ k → Changed buffers c → Changed buffers c' → c < s :=
    fun c c' hcc hck hc hc' =>
      h.configured_lt (horder.tile_changed delivered k [] rfl c c' hcc hck hc hc')
  obtain ⟨v', hok, hv', hn'⟩ := shows_tile title appId h.shows h.near hk hshrink hchanged
  refine ⟨v', hok, ⟨?_, ?_, h.le, hn', hv'⟩⟩
  · rw [List.filter_append, h.stream]
    simp [Tag.isStream, Tag.isTile]
  · rw [List.filter_append, h.tiles, List.range_succ, List.map_append]
    rfl

/-- The next message of a delivery in order. -/
theorem Progress.next {delivered : List Tag} {m : Tag} {v : Viewer} {s k : Nat}
    (h : Progress id buffers delivered v s k)
    (hstream : (delivered ++ [m]).filter Tag.isStream <+: (sentTags buffers).filter Tag.isStream)
    (htiles : (delivered ++ [m]).filter Tag.isTile <+: (sentTags buffers).filter Tag.isTile)
    (horder : InOrder buffers (delivered ++ [m])) :
    ∃ v' s' k', v.handleAll ([m].filterMap (Tag.message id title appId buffers)) = .ok v' ∧
      Progress id buffers (delivered ++ [m]) v' s' k' := by
  rw [List.filter_append, h.stream, filter_isStream_sentTags, List.cons_append,
    List.cons_prefix_cons] at hstream
  rw [List.filter_append, h.tiles, filter_isTile_sentTags] at htiles
  cases m with
  | created =>
    -- `Created` is sent once
    have hmem : Tag.created ∈ configuredTags buffers buffers.length :=
      hstream.2.subset (List.mem_append_right _ List.mem_cons_self)
    simp [configuredTags] at hmem
  | configured c =>
    obtain ⟨v', hok, hp⟩ := h.next_configured title appId hstream.2 horder
    exact ⟨v', c + 1, k, hok, hp⟩
  | tile j =>
    obtain ⟨rfl, hk⟩ := tile_next htiles
    obtain ⟨v', hok, hp⟩ := h.next_tile title appId hk horder
    exact ⟨v', s, j + 1, hok, hp⟩

/-- The first message of a delivery in order is `Created`. -/
theorem progress_created {v : Viewer} (hv : v.windows.lookup id = none) {m : Tag}
    (hstream : [m].filter Tag.isStream <+: (sentTags buffers).filter Tag.isStream)
    (horder : InOrder buffers [m]) :
    ∃ v', v.handleAll ([m].filterMap (Tag.message id title appId buffers)) = .ok v' ∧
      Progress id buffers [m] v' 0 0 := by
  cases m with
  | tile j => exact absurd (horder.tile_created [] j [] rfl) List.not_mem_nil
  | configured c =>
    rw [filter_isStream_sentTags] at hstream
    simp [Tag.isStream, Tag.isTile, List.cons_prefix_cons] at hstream
  | created =>
    obtain ⟨v', hok, hv'⟩ := Viewer.shows_created hv title appId
    exact ⟨v', Viewer.handleAll_cons hok, ⟨rfl, rfl, Nat.zero_le _, near_self 0, hv'⟩⟩

theorem progress_of_prefix {v : Viewer} (hv : v.windows.lookup id = none) {delivered : List Tag}
    (hne : delivered ≠ [])
    (hstream : delivered.filter Tag.isStream <+: (sentTags buffers).filter Tag.isStream)
    (htiles : delivered.filter Tag.isTile <+: (sentTags buffers).filter Tag.isTile)
    (horder : InOrder buffers delivered) :
    ∃ v' s k, v.handleAll (delivered.filterMap (Tag.message id title appId buffers)) = .ok v' ∧
      Progress id buffers delivered v' s k := by
  induction delivered using List.reverseRecOn with
  | nil => exact absurd rfl hne
  | append_singleton delivered m ih =>
    have hpre : delivered <+: delivered ++ [m] := List.prefix_append _ _
    by_cases hnil : delivered = []
    · subst hnil
      obtain ⟨v', hok, hp⟩ := progress_created title appId hv hstream horder
      exact ⟨v', 0, 0, hok, hp⟩
    · obtain ⟨v₁, s, k, hok, hp⟩ := ih hnil ((hpre.filter _).trans hstream)
        ((hpre.filter _).trans htiles) horder.init
      obtain ⟨v', s', k', hok', hp'⟩ := hp.next title appId hstream htiles horder
      refine ⟨v', s', k', ?_, hp'⟩
      rw [List.filterMap_append, Viewer.handleAll_append hok]
      exact hok'

/-- In the order of sending. -/
theorem shows_sent {v : Viewer} (hv : v.windows.lookup id = none) :
    ∀ m ≤ buffers.length,
      ∃ v', v.handleAll ((.created :: (List.range m).flatMap (commitTags buffers)).filterMap
          (Tag.message id title appId buffers)) = .ok v' ∧
        v'.Shows id (expected id buffers m m) := by
  intro m
  induction m with
  | zero =>
    intro _
    obtain ⟨v', hok, hv'⟩ := Viewer.shows_created hv title appId
    exact ⟨v', Viewer.handleAll_cons hok, hv'⟩
  | succ m ih =>
    intro hm
    obtain ⟨v₁, hok₁, hv₁⟩ := ih (by omega)
    have hsplit : (.created :: (List.range (m + 1)).flatMap (commitTags buffers) : List Tag) =
        (.created :: (List.range m).flatMap (commitTags buffers)) ++ commitTags buffers m := by
      simp [List.range_succ]
    -- the window event of the commit, if there is one
    have hevent : ∃ v₂, v₁.handleAll ((if Changed buffers m then [.configured m] else []).filterMap
          (Tag.message id title appId buffers)) = .ok v₂ ∧
        v₂.Shows id (expected id buffers (m + 1) m) ∧ Near buffers (m + 1) m := by
      by_cases hc : Changed buffers m
      · rw [if_pos hc]
        exact shows_configured title appId hv₁ (near_self m) hc fun _ => Nat.le_refl m
      · have hno : ∀ d, m ≤ d → d < m + 1 → ¬ Changed buffers d := fun d hd hdm => by
          rwa [show d = m by omega]
        rw [expected_reindex (Nat.le_succ m) hno] at hv₁
        rw [if_neg hc]
        exact ⟨v₁, rfl, hv₁, (near_self m).reindex (Nat.le_succ m) hno⟩
    obtain ⟨v₂, hok₂, hv₂, hn₂⟩ := hevent
    obtain ⟨v₃, hok₃, hv₃, -⟩ := shows_tile title appId hv₂ hn₂ hm
      (fun c hc _ => by omega) (fun c c' hcc hc _ _ => by omega)
    refine ⟨v₃, ?_, hv₃⟩
    rw [hsplit, commitTags, List.filterMap_append, List.filterMap_append,
      Viewer.handleAll_append hok₁, Viewer.handleAll_append hok₂]
    exact hok₃

end Run

/-- Both orders leave the window with the same size and the same pixels. -/
def SamePicture (v : Viewer) (id : UInt64) (msgs msgs' : List Message) : Prop :=
  ∃ v₁ v₂ f g, v.handleAll msgs = .ok v₁ ∧ v.handleAll msgs' = .ok v₂ ∧
    v₁.windows.lookup id = some f ∧ v₂.windows.lookup id = some g ∧
    f.width = g.width ∧ f.height = g.height ∧ f.pixels = g.pixels

theorem Viewer.Shows.samePicture {v v₁ v₂ : Viewer} {id : UInt64} {p : Picture}
    {msgs msgs' : List Message} (h₁ : v.handleAll msgs = .ok v₁) (h₂ : v.handleAll msgs' = .ok v₂)
    (hs₁ : v₁.Shows id p) (hs₂ : v₂.Shows id p) : SamePicture v id msgs msgs' := by
  obtain ⟨f, hf, hfp⟩ := hs₁
  obtain ⟨g, hg, hgp⟩ := hs₂
  have hpic : f.picture = g.picture := by rw [hfp, hgp]
  refine ⟨v₁, v₂, f, g, h₁, h₂, hf, hg, ?_, ?_, FrameBuffer.pixels_eq_of_picture_eq hpic⟩
  · exact congrArg Picture.width hpic
  · exact congrArg Picture.height hpic

/-- **The picture does not depend on the order of delivery**, as long as the tiles and the window
events that matter to each other keep theirs. -/
theorem picture_of_delivery_in_order (id : UInt64) (title appId : String) (buffers : List RootBuffer)
    (v : Viewer) (hv : v.windows.lookup id = none) (deliveries : List Tag)
    (hstream : deliveries.filter Tag.isStream = (sentTags buffers).filter Tag.isStream)
    (htiles : deliveries.filter Tag.isTile = (sentTags buffers).filter Tag.isTile)
    (horder : InOrder buffers deliveries) :
    SamePicture v id (deliveries.filterMap (Tag.message id title appId buffers))
      (sent id title appId buffers) := by
  have hne : deliveries ≠ [] := by
    rintro rfl
    simp [filter_isStream_sentTags] at hstream
  obtain ⟨v₁, s, k, hok₁, hp⟩ := progress_of_prefix title appId hv hne
    (hstream ▸ List.prefix_refl _) (htiles ▸ List.prefix_refl _) horder
  obtain ⟨v₂, hok₂, hv₂⟩ := shows_sent title appId hv buffers.length
    (Nat.le_refl _)
  -- everything is delivered
  have hk : k = buffers.length := by
    have := hp.tiles.symm.trans (htiles.trans (filter_isTile_sentTags buffers))
    simpa using congrArg List.length this
  have hs : (List.range s).filter (fun c => Changed buffers c) =
      (List.range buffers.length).filter fun c => Changed buffers c := by
    have := hp.stream.symm.trans (hstream.trans (filter_isStream_sentTags buffers))
    exact (List.map_injective_iff.2 fun _ _ h => by cases h; rfl) (List.cons_inj_right _ |>.1 this)
  have hno : ∀ d, s ≤ d → d < buffers.length → ¬ Changed buffers d := by
    simpa using no_change_between hs
  have hv₁ := hp.shows
  rw [expected_reindex hp.le hno, hk] at hv₁
  rw [sent_eq]
  exact hv₁.samePicture hok₁ hok₂ hv₂

/-! ## Two deliveries -/

/-- A buffer of one colour. -/
def solidBuffer (width height : UInt32) (red : UInt8) (hw : 0 < width.toNat) (hh : 0 < height.toNat)
    (hlt : 4 * width.toNat * height.toNat < 2 ^ 32) : RootBuffer :=
  { width, height
    bytes := (List.replicate (width.toNat * height.toNat) [red, 0, 0, 255]).flatten
    width_pos := hw
    height_pos := hh
    bytes_length := by
      simp only [List.length_flatten, List.map_replicate, List.length_cons, List.length_nil,
        List.sum_replicate_nat]
      rw [Nat.mul_comm, Nat.mul_assoc]
    bytes_lt := hlt }

def square : RootBuffer := solidBuffer 2 2 170 (by decide) (by decide) (by decide)

def dot : RootBuffer := solidBuffer 1 1 187 (by decide) (by decide) (by decide)

/-- A tile may overtake the `Configured` that makes room for it. -/
theorem picture_of_delivery_in_order_growing :
    SamePicture Viewer.empty 7
      ([Tag.created, .tile 0, .configured 0].filterMap (Tag.message 7 "term" "foot" [square]))
      (sent 7 "term" "foot" [square]) := by
  refine picture_of_delivery_in_order 7 "term" "foot" [square] Viewer.empty rfl
    [.created, .tile 0, .configured 0] (by decide) (by decide) ?_
  -- the window only grows
  have hgrows : ∀ c ≤ 0, ¬ Shrinks [square] c := by decide
  have htile : ∀ before k after, [.created, .tile 0, .configured 0] = before ++ Tag.tile k :: after →
      before = [.created] ∧ k = 0 := by
    intro before k after h
    have : before = [.created] ∧ k = 0 ∧ after = [.configured 0] := by
      simpa [List.cons_eq_append_iff] using h
    exact ⟨this.1, this.2.1⟩
  have hconfigured : ∀ before c after,
      [.created, .tile 0, .configured 0] = before ++ Tag.configured c :: after → c = 0 := by
    intro before c after h
    have : before = [.created, .tile 0] ∧ c = 0 ∧ after = [] := by
      simpa [List.cons_eq_append_iff] using h
    exact this.2.1
  refine ⟨fun before k after h => ?_, fun before k after h c hc hs => ?_,
    fun before k after h c c' hcc hck => ?_, fun before c after h hs => ?_⟩
  · simp [(htile before k after h).1]
  · exact absurd hs (hgrows c ((htile before k after h).2 ▸ hc))
  · have := (htile before k after h).2
    omega
  · exact absurd hs (hgrows c (hconfigured before c after h).le)

/-- It may not overtake one that makes the window smaller: the viewer then clears what the tile has
drawn, and shows an empty window. -/
theorem shrink_overtaken_by_tile :
    [Tag.created, .configured 0, .tile 0, .tile 1, .configured 1].filter Tag.isStream =
        (sentTags [square, dot]).filter Tag.isStream ∧
      [Tag.created, .configured 0, .tile 0, .tile 1, .configured 1].filter Tag.isTile =
        (sentTags [square, dot]).filter Tag.isTile ∧
      ¬ SamePicture Viewer.empty 7
        ([Tag.created, .configured 0, .tile 0, .tile 1, .configured 1].filterMap
          (Tag.message 7 "term" "foot" [square, dot]))
        (sent 7 "term" "foot" [square, dot]) := by
  refine ⟨by decide, by decide, ?_⟩
  rintro ⟨v₁, v₂, f, g, h₁, h₂, hf, hg, -, -, hpixels⟩
  have hcleared : (Viewer.empty.handleAll ([Tag.created, .configured 0, .tile 0, .tile 1,
      .configured 1].filterMap (Tag.message 7 "term" "foot" [square, dot]))).toOption.bind
        (fun v => (v.windows.lookup 7).map (·.pixels)) = some [0] := by
    decide +kernel
  have hdrawn : (Viewer.empty.handleAll (sent 7 "term" "foot" [square, dot])).toOption.bind
      (fun v => (v.windows.lookup 7).map (·.pixels)) = some [0xffbb0000] := by
    decide +kernel
  rw [h₁] at hcleared
  rw [h₂] at hdrawn
  simp only [Except.toOption, Option.bind_some, hf, hg, Option.map_some, Option.some.injEq]
    at hcleared hdrawn
  rw [hcleared, hdrawn] at hpixels
  exact absurd hpixels (by decide)

end VBox

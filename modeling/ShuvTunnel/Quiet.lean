/-
# What most segments do to the bridges: nothing that matters

`Bridges.Quiet b b'`: no socket got attached, opened or a new attachment, a
new socket is not attached, and no channel was entered into the map. Only the
attach message's last segment and `connect`'s second one do more.
-/
import ShuvTunnel.System

namespace ShuvTunnel

open Coop

namespace Socket

/-- Socket `w'` of a later state is socket `w` of an earlier one: it may have
closed and been sent messages. -/
def Same (w w' : Socket) : Prop :=
  w.id = w'.id ∧ w.attachment = w'.attachment ∧ (w'.isOpen = true → w.isOpen = true)

theorem Same.refl (w : Socket) : Same w w := ⟨rfl, rfl, fun h => h⟩

theorem Same.trans {u v w : Socket} (h : Same u v) (h' : Same v w) : Same u w :=
  ⟨h.1.trans h'.1, h.2.1.trans h'.2.1, fun x => h.2.2 (h'.2.2 x)⟩

theorem Same.attached {w w' : Socket} (h : Same w w') : w'.attached = w.attached := by
  unfold Socket.attached; rw [h.2.1]

theorem Same.routes {w w' : Socket} (h : Same w w') : w'.routes = w.routes := by
  unfold Socket.routes; rw [h.2.1]

theorem same_close (w : Socket) : Same w w.close := ⟨rfl, rfl, fun h => by simp at h⟩

end Socket

namespace Bridges

/-- The sockets have different ids, all of them drawn. -/
structure Numbered (b : Bridges) : Prop where
  nodup : (b.sockets.map (·.id)).Nodup
  lt : ∀ id ∈ b.sockets.map (·.id), id < b.nextSocket

theorem Numbered.of_ids {b b' : Bridges} (h : b.Numbered)
    (hs : b'.sockets.map (·.id) = b.sockets.map (·.id)) (hn : b'.nextSocket = b.nextSocket) :
    b'.Numbered := by
  refine ⟨hs ▸ h.nodup, fun id hid => ?_⟩
  rw [hn]
  exact h.lt id (hs ▸ hid)

/-- The bridges after a step that attaches none: sockets and channels may go, and
no socket becomes attached. -/
structure Quiet (b b' : Bridges) : Prop where
  sockets : ∀ w' ∈ b'.sockets, (∃ w ∈ b.sockets, Socket.Same w w') ∨ w'.attached = false
  channels : b'.channels ⊆ b.channels
  numbered : b.Numbered → b'.Numbered

theorem Quiet.refl (b : Bridges) : Quiet b b :=
  ⟨fun w hw => .inl ⟨w, hw, .refl w⟩, fun _ h => h, fun h => h⟩

theorem Quiet.trans {a b c : Bridges} (h : Quiet a b) (h' : Quiet b c) : Quiet a c := by
  refine ⟨fun w hw => ?_, fun x hx => h.channels (h'.channels hx), fun hn => h'.numbered (h.numbered hn)⟩
  rcases h'.sockets w hw with ⟨v, hv, hvw⟩ | hw
  · rcases h.sockets v hv with ⟨u, hu, huv⟩ | hv
    · exact .inl ⟨u, hu, huv.trans hvw⟩
    · exact .inr (hvw.attached.trans hv)
  · exact .inr hw

/-- The same sockets, and channels of before. -/
theorem Quiet.of_sockets {b b' : Bridges} (hs : b'.sockets = b.sockets) (hn : b'.nextSocket = b.nextSocket)
    (hc : b'.channels ⊆ b.channels) : Quiet b b' :=
  ⟨fun w hw => .inl ⟨w, hs ▸ hw, .refl w⟩, hc, fun h => h.of_ids (by rw [hs]) hn⟩

theorem updateSocket_ids (b : Bridges) (id : ℕ) {f : Socket → Socket} (hf : ∀ w, (f w).id = w.id) :
    (b.updateSocket id f).sockets.map (·.id) = b.sockets.map (·.id) := by
  unfold Bridges.updateSocket
  rw [List.map_map]
  refine List.map_congr_left fun w _ => ?_
  by_cases hw : w.id = id
  · simp [hw, hf]
  · simp [hw]

theorem Quiet.updateSocket (b : Bridges) (id : ℕ) {f : Socket → Socket} (hf : ∀ w, Socket.Same w (f w)) :
    Quiet b (b.updateSocket id f) := by
  refine ⟨fun w' hw' => .inl ?_, fun _ h => h, fun h => h.of_ids (updateSocket_ids b id fun w => ?_) rfl⟩
  rotate_left
  · exact (hf w).1.symm
  obtain ⟨w, hw, rfl⟩ := List.mem_map.mp hw'
  refine ⟨w, hw, ?_⟩
  split
  · exact hf w
  · exact .refl w

theorem Quiet.close (b : Bridges) (id : ℕ) : Quiet b (b.close id) := .updateSocket b id Socket.same_close

theorem Quiet.send {P : Platform} {b b' : Bridges} {id : ℕ} {m : ServerMessage}
    (h : b.send P id m = some b') : Quiet b b' := by
  unfold Bridges.send at h
  split at h
  · obtain rfl := Option.some.inj h
    exact .updateSocket b id fun w => ⟨rfl, rfl, fun h => h⟩
  · split at h
    · cases h
    · obtain rfl := Option.some.inj h
      exact .refl b

theorem Quiet.sendAll {P : Platform} {b b' : Bridges} {id : ℕ} {ms : List ServerMessage}
    (h : Store.sendAll P b id ms = some b') : Quiet b b' := by
  induction ms generalizing b with
  | nil =>
    obtain rfl := Option.some.inj h
    exact .refl b
  | cons m ms ih =>
    obtain ⟨c, hc, h⟩ := Option.bind_eq_some_iff.mp h
    exact (Quiet.send hc).trans (ih h)

theorem send_channels {P : Platform} {b b' : Bridges} {id : ℕ} {m : ServerMessage}
    (h : b.send P id m = some b') : b'.channels = b.channels := by
  unfold Bridges.send at h
  split at h
  · obtain rfl := Option.some.inj h
    rfl
  · split at h
    · cases h
    · obtain rfl := Option.some.inj h
      rfl

theorem sendAll_channels {P : Platform} {b b' : Bridges} {id : ℕ} {ms : List ServerMessage}
    (h : Store.sendAll P b id ms = some b') : b'.channels = b.channels := by
  induction ms generalizing b with
  | nil =>
    obtain rfl := Option.some.inj h
    rfl
  | cons m ms ih =>
    obtain ⟨c, hc, h⟩ := Option.bind_eq_some_iff.mp h
    exact (ih h).trans (send_channels hc)

theorem Quiet.finish (b : Bridges) (key : ℕ) (error : Bool) : Quiet b (b.finish key error) :=
  .of_sockets (by simp) (by simp) (finish_channels_subset b key error)

theorem finishAll_sockets (b : Bridges) (p : Channel → Bool) (error : Bool) :
    (b.finishAll p error).sockets = b.sockets := by
  unfold finishAll
  generalize b.channels.map (·.2) = keys
  induction keys generalizing b with
  | nil => rfl
  | cons k ks ih =>
    rw [List.foldl_cons, ih]
    split
    · exact finish_sockets b k error
    · rfl

theorem finishAll_nextSocket (b : Bridges) (p : Channel → Bool) (error : Bool) :
    (b.finishAll p error).nextSocket = b.nextSocket := by
  unfold finishAll
  generalize b.channels.map (·.2) = keys
  induction keys generalizing b with
  | nil => rfl
  | cons k ks ih =>
    rw [List.foldl_cons, ih]
    split
    · exact finish_nextSocket b k error
    · rfl

theorem finishAll_channels (b : Bridges) (p : Channel → Bool) (error : Bool) :
    (b.finishAll p error).channels ⊆ b.channels := by
  unfold finishAll
  generalize b.channels.map (·.2) = keys
  induction keys generalizing b with
  | nil => exact fun _ h => h
  | cons k ks ih =>
    rw [List.foldl_cons]
    refine fun x hx => ?_
    have h := ih _ hx
    split at h
    · exact finish_channels_subset b k error h
    · exact h

theorem Quiet.finishAll (b : Bridges) (p : Channel → Bool) (error : Bool) : Quiet b (b.finishAll p error) :=
  .of_sockets (finishAll_sockets b p error) (finishAll_nextSocket b p error) (finishAll_channels b p error)

theorem Quiet.write (b : Bridges) (key : ℕ) (payload : Bytes) : Quiet b (b.write key payload) :=
  .of_sockets rfl rfl fun _ h => h

theorem Quiet.shutDown (b : Bridges) : Quiet b (Store.shutDown b) := by
  refine ⟨fun w' hw' => .inl ?_, by simp [Store.shutDown], fun h => h.of_ids ?_ ?_⟩
  · rw [Store.shutDown, finishAll_sockets] at hw'
    obtain ⟨w, hw, rfl⟩ := List.mem_map.mp hw'
    exact ⟨w, hw, Socket.same_close w⟩
  · rw [Store.shutDown, finishAll_sockets, List.map_map]
    rfl
  · rw [Store.shutDown, finishAll_nextSocket]

theorem Quiet.acceptWebSocket (b : Bridges) (position : ℕ) :
    Quiet b (Store.acceptWebSocket b position) := by
  refine ⟨fun w hw => ?_, fun _ h => h, fun h => ?_⟩
  · rcases List.mem_append.mp hw with hw | hw
    · exact .inl ⟨w, List.mem_of_mem_take hw, .refl w⟩
    · rcases List.mem_cons.mp hw with rfl | hw
      · exact .inr rfl
      · exact .inl ⟨w, List.mem_of_mem_drop hw, .refl w⟩
  · -- the new id is above all others
    have hids : ((Store.acceptWebSocket b position).sockets.map (·.id)).Perm
        (b.nextSocket :: b.sockets.map (·.id)) := by
      have : ((b.sockets.take position).map (·.id) ++ b.nextSocket ::
          (b.sockets.drop position).map (·.id)).Perm (b.nextSocket ::
            ((b.sockets.take position).map (·.id) ++ (b.sockets.drop position).map (·.id))) :=
        List.perm_middle
      rw [← List.map_append, List.take_append_drop] at this
      simpa [Store.acceptWebSocket] using this
    refine ⟨hids.nodup_iff.mpr (List.nodup_cons.mpr ⟨fun hm => ?_, h.nodup⟩), fun id hid => ?_⟩
    · exact absurd (h.lt _ hm) (lt_irrefl _)
    · rcases List.mem_cons.mp (hids.mem_iff.mp hid) with rfl | hid
      · exact Nat.lt_succ_self _
      · exact Nat.lt_succ_of_lt (h.lt id hid)

/-- After a quiet change an attached socket was attached before. -/
theorem Quiet.attached {b b' : Bridges} (h : Quiet b b') {w' : Socket} (hw : w' ∈ b'.sockets)
    (ha : w'.attached = true) : ∃ w ∈ b.sockets, Socket.Same w w' := by
  rcases h.sockets w' hw with h | h
  · exact h
  · rw [ha] at h; cases h

theorem Quiet.attachedBridges {b b' : Bridges} (h : Quiet b b') (hb : b'.attachedBridges ≠ []) :
    b.attachedBridges ≠ [] := by
  obtain ⟨w', hw'⟩ := List.exists_mem_of_ne_nil _ hb
  obtain ⟨hm, ha⟩ := List.mem_filter.mp hw'
  obtain ⟨w, hw, hs⟩ := h.attached hm ha
  exact List.ne_nil_of_mem (List.mem_filter.mpr ⟨hw, hs.attached ▸ ha⟩)

end Bridges

end ShuvTunnel

import DeviceBridge.Proofs.Bridge.LastStart
import DeviceBridge.Proofs.Bridge.Recovery

/-!
# DeviceBridge.Proofs.Bridge.Renewal

What a bridge has once it has been renewed. Whether or not it starts over, renewing ends with making
a node, so the bridge holds a new node and nothing else, and its document has just been written
(`Site.Orderly.after_renew_renewed`). On a disk without faults the time of a start can be kept in
such a document if a time can be read from it, or none is there (`Bridge.attains_recordLastStart`),
and otherwise it is the text of the document that is refused
(`Bridge.after_recordLastStart_unshown`).
-/

namespace DeviceBridge

open Json (Value Object)
open Files

/-- A bridge has written its document, and can write it again. -/
structure Bridge.Documented (b : Bridge) (id : UniqueId) (t : Tree) : Prop where
  sound : t.Sound
  keeps : b.appContext.Keeps t uniqueIdKey (.string id.text)
  present : b.storage.Present t
  writable : b.appContext.Writable t

theorem Bridge.Documented.congr {b b' : Bridge} {id : UniqueId} {t : Tree}
    (h : b.Documented id t) (hb : b'.config = b.config) : b'.Documented id t := by
  obtain ⟨hs, hkeeps, hpresent, hwritable⟩ := h
  rw [← appContext_congr hb] at hkeeps hwritable
  rw [← storage_congr hb] at hpresent
  exact ⟨hs, hkeeps, hpresent, hwritable⟩

/-- The bridge holds a new node under an id and nothing else, and has written its document. -/
structure Site.Renewed (c : BridgeConfig) (id : UniqueId) (s : Site) : Prop where
  config : s.bridge.config = c
  anew : s.StartsAnew c id
  documented : s.bridge.Documented id s.tree

/-! ## How a bridge is renewed -/

namespace Bridge

variable {s : Site}

/-- The document that a new node leaves is the one that was there, with the unique id. -/
theorem Recorded.shows {b : Bridge} {id : UniqueId} {t t' : Tree} (h : b.Recorded id t t')
    (hp : b.appContext.draft.Passable) {entries : Object} (hd : b.appContext.Displays t entries)
    (hf : (Value.object entries).FloatFree) :
    b.appContext.Shows t' (entries.insert uniqueIdKey (.string id.text)) := by
  obtain ⟨marks, kept, t₁, -, hroot, -, hkept, happ⟩ := h
  have hmarked : b.storage.Present t₁ := hroot.present
  have hd₁ : b.appContext.Displays t₁ entries :=
    hd.congr (entry?_app_of_written hroot happ.path_not_mem_way)
  have hsame := (hkept.displays_of_present (Context.passable_path hp) hmarked).stored?
  obtain rfl := Option.some.inj (hd₁.stored?.symm.trans hsame)
  have hplain := (hd.plain hf).insert (v := .string id.text) trivial uniqueIdKey
  exact (happ.displays hplain).shows_of_present (Context.passable_path hp) happ.present

/-- A bridge without devices whose window is closed has nothing but its node once it has made it. -/
theorem after_init_renewed (hs : s.tree.Sound) (hdevices : s.bridge.devices = [])
    (hshut : s.bridge.window.isOpen = false) (bits : RandomBits) :
    After (init bits) s
      (fun _ s' => ∃ id, s'.Renewed s.bridge.config id ∧
        s'.host.disk.faults = s.host.disk.faults ∧ ∀ entries,
          s.bridge.appContext.Displays s.tree entries → (Value.object entries).FloatFree →
          s.bridge.appContext.Shows s'.tree (entries.insert uniqueIdKey (.string id.text)))
      (fun _ _ => True) := by
  refine (((after_init hs bits).and (after_init_recorded hs bits)).and
    (after_init_legible hs bits)).mono (fun _ s' h => ?_) fun _ _ _ => trivial
  obtain ⟨⟨⟨-, id, hmade, hb⟩, id', hid', hrecorded⟩, hlegible⟩ := h
  obtain rfl : id' = id := by
    rw [hb] at hid'
    exact (Option.some.inj hid').symm
  have hp := hlegible.appWritable.passable
  obtain ⟨_, _, _, -, -, -, -, hwritten⟩ := id hrecorded
  have hconfig : s'.bridge.config = s.bridge.config := by rw [hb]
  have happ : s'.bridge.appContext = s.bridge.appContext := appContext_congr hconfig
  refine ⟨id', ⟨hconfig, ⟨by rw [hb], by rw [hb]; exact hdevices, by rw [hb]; exact hshut,
    s.nodes.length, by rw [hb], ?_⟩, ⟨hmade.steady.sound, happ ▸ hmade.keeps, ?_, ?_⟩⟩,
    hmade.steady.faults, fun entries hd hf => hrecorded.shows hp hd hf⟩
  · rw [hmade.nodes]
    exact List.getElem?_concat_length
  · exact storage_congr hconfig ▸ hwritten.present
  · rw [happ]
    refine ⟨hp, hwritten.path_not_mem_way, ?_, hwritten.draft_not_mem_way, ?_⟩
    · rw [hwritten.place, if_pos rfl]
      exact nofun
    · rw [hwritten.place, if_neg (Context.path_ne_draft _ _).symm, if_pos rfl]
      exact nofun

end Bridge

/-- Erasing a namespace does not prevent faults, nor does it add any. -/
theorem Namespace.leaves_erase_faults (n : Namespace) (d : Disk) :
    Leaves n.erase d (fun d' => d'.faults = d.faults) := by
  refine Context.after_ofDisk (after_bind ((Disk.after_ifPresent
    (Disk.after_change (·.removeTree n.dir) _)).mono (fun r _ h => ?_) fun _ _ h => h.1))
  cases r <;> exact after_pure h.1

namespace Site.Orderly

variable {first : Nat} {s : Site}

/-- Starting over leaves a document with nothing but the unique id. -/
theorem startOver_renewed (h : s.Orderly first) {text : String}
    (hread : s.tree.read s.bridge.appContext.path = .ok text) (bits : RandomBits) :
    After (Bridge.startOver bits) s
      (fun _ s' => ∃ id, s'.Renewed s.bridge.config id ∧
        s'.host.disk.faults = s.host.disk.faults ∧
        s.bridge.appContext.Shows s'.tree (Bridge.idDocument id))
      (fun _ _ => True) := by
  refine after_bind (Bridge.after_heldNode (fun i hi => ?_) fun _ => trivial)
  obtain ⟨-, n, -, hn, -⟩ := h.lifecycle.held i hi
  have hfaults : Leaves (Bridge.delegating "initializeBridge" (Host.eraseNode i)) s
      (fun s' => s'.host.disk.faults = s.host.disk.faults) :=
    Bridge.after_delegating ((Bridge.after_eraseNode hn (Namespace.leaves_erase_faults _ _)).mono
      (fun _ _ h' => h'.2) fun _ _ h' => h'.2)
  refine after_bind ((((h.erase_place hi hread _).and (h.eraseNode _ i)).and hfaults).mono
    (fun _ s₁ h₁ => ?_) fun _ _ _ => trivial)
  obtain ⟨⟨⟨hb₁, hplace⟩, -, h₁⟩, hf₁⟩ := h₁
  refine after_bind ((h₁.close.and (Bridge.after_close s₁)).mono (fun _ s₂ h₂ => ?_)
    fun _ _ h' => h'.1.elim)
  obtain ⟨⟨h₂, hb₂, ht₂⟩, -, hd₂, -⟩ := h₂
  rw [← ht₂] at hplace
  have hconfig : s₂.bridge.config = s.bridge.config := by
    rw [hb₂, Bridge.config_forget, hb₁]
  have happ : s₂.bridge.appContext = s.bridge.appContext := Bridge.appContext_congr hconfig
  refine after_bind (after_get (after_bind (Bridge.after_storing (((Context.after_set h₂.sound _ _
    _).and (Context.after_set_written h₂.sound _ _ _)).mono (fun _ d hset => ?_)
    fun _ _ _ => trivial))))
  obtain ⟨⟨hf₃, hs₃, -⟩, entries, hshow, hwritten⟩ := hset
  have hhome : s.bridge.storage.home <+: s.bridge.appContext.path.location :=
    s.bridge.appContext.home_isPrefix_path
  -- Nothing was left to set the unique id beside.
  obtain rfl := hshow.eq_nil fun x => by
    rw [happ, hplace, if_pos hhome]
    exact nofun
  have hdisplays := hwritten.displays (Bridge.plain_idDocument (.random bits))
  refine (Bridge.after_init_renewed (s := { s₂ with host := { s₂.host with disk := d } }) hs₃
    (hb₂ ▸ Bridge.devices_forget _) (hb₂ ▸ Bridge.isOpen_forget _) bits).imp fun _ s₄ h₄ => ?_
  obtain ⟨id, hrenewed, hf₄, hshows⟩ := h₄
  refine ⟨id, hconfig ▸ hrenewed, ?_, ?_⟩
  · exact ((hf₄.trans hf₃).trans (congrArg Disk.faults hd₂)).trans hf₁
  · exact happ ▸ hshows _ hdisplays (Bridge.plain_idDocument _).floatFree

/-- A bridge that has been renewed holds a new node and nothing else. Its document is the one that
was there, or an empty one if the bridge has started over, with the unique id of the node. -/
theorem after_renew_renewed (h : s.Orderly first) (reset : Bool) (bits resetBits : RandomBits) :
    After (Bridge.renew reset bits resetBits) s
      (fun _ s' => ∃ id, s'.Renewed s.bridge.config id ∧
        s'.host.disk.faults = s.host.disk.faults ∧ ∀ entries,
          s.bridge.appContext.Displays s.tree entries →
          (reset = false → (Value.object entries).FloatFree) →
          s.bridge.appContext.Shows s'.tree
            (Dictionary.insert (if reset then [] else entries) Bridge.uniqueIdKey
              (.string id.text)))
      (fun _ _ => True) := by
  refine after_bind ((h.close.and (Bridge.after_close s)).mono (fun _ s₁ h₁ => ?_)
    fun _ _ h' => h'.1.elim)
  obtain ⟨⟨h₁, hb₁, ht₁⟩, -, hd₁, -⟩ := h₁
  have hconfig : s₁.bridge.config = s.bridge.config := by rw [hb₁, Bridge.config_forget]
  have happ : s₁.bridge.appContext = s.bridge.appContext := Bridge.appContext_congr hconfig
  have hf₁ : s₁.host.disk.faults = s.host.disk.faults := congrArg Disk.faults hd₁
  refine after_bind (((Bridge.after_init_renewed h₁.sound (hb₁ ▸ Bridge.devices_forget _)
    (hb₁ ▸ Bridge.isOpen_forget _) bits).and ((Bridge.after_init h₁.sound bits).and
    (h₁.init bits))).mono (fun _ s₂ h₂ => ?_) fun _ _ _ => trivial)
  obtain ⟨⟨id, hrenewed, hf₂, hshows⟩, ⟨-, id', -, hb₂⟩, h₂⟩ := h₂
  rw [hconfig] at hrenewed
  rw [happ, ht₁] at hshows
  cases reset with
  | false =>
      exact after_pure ⟨id, hrenewed, hf₂.trans hf₁, fun entries hd hfree =>
        hshows entries hd (hfree rfl)⟩
  | true =>
      have hconfig₂ : s₂.bridge.config = s.bridge.config := by rw [hb₂]; exact hconfig
      obtain ⟨kept, hread, -⟩ := hrenewed.documented.keeps
      refine (h₂.startOver_renewed hread resetBits).imp fun _ s₃ h₃ => ?_
      obtain ⟨id₃, hrenewed₃, hf₃, hshows₃⟩ := h₃
      refine ⟨id₃, hconfig₂ ▸ hrenewed₃, (hf₃.trans hf₂).trans hf₁, fun _ _ _ => ?_⟩
      exact Bridge.appContext_congr hconfig₂ ▸ hshows₃

end Site.Orderly

/-! ## Keeping the time of a start -/

/-- On a disk without faults, nothing is wrong with a document that was written but what is in it.
-/
theorem Context.after_get?_of_keeps {α : Type} [Json.Codec α] {c : Context} {d : Disk}
    {kept : String} {v : Value} (h : d.Faultless) (hk : c.Keeps d.tree kept v) (key : String) :
    After (c.get? α key) d (fun _ _ => True) (fun e _ => ∃ j, e = .json j) := by
  obtain ⟨entries, hread, hordered, -⟩ := hk
  unfold get? find? load
  refine after_bind (after_bind (after_bind ((after_ofDisk (Disk.attains_ifPresent_read h
    (.inl ⟨_, hread⟩))).mono (fun r d₁ h₁ => ?_) fun _ _ => False.elim)))
  obtain ⟨-, -, hr⟩ := h₁
  cases r with
  | none => cases hread.symm.trans hr
  | some text =>
      obtain rfl := Except.ok.inj (hread.symm.trans hr)
      dsimp only
      cases hv : Json.readValue (Value.object entries).pretty with
      | error e => exact after_bind (after_throw ⟨e, rfl⟩)
      | ok w =>
          obtain ⟨members, rfl, -⟩ := Json.readValue_pretty hordered hv
          refine after_bind (after_pure (after_pure (after_pure ?_)))
          cases members.get? key with
          | none => exact after_pure trivial
          | some w =>
              refine after_bind ?_
              cases (Json.decodeValue w : Except Json.Error α) with
              | error e => exact after_throw ⟨e, rfl⟩
              | ok a => exact after_pure (after_pure trivial)

namespace Bridge

variable {s : Site} {id : UniqueId}

/-- The unique id does not stand in the place of the time. -/
theorem showsStart_iff_of_insert {b : Bridge} {t : Tree} {entries : Object} {v : Value}
    (hshow : b.appContext.Shows t (entries.insert uniqueIdKey v)) (kept : Option Int64) :
    b.ShowsStart t kept ↔ entries.get? lastStartKey = kept.map timeValue := by
  have hget : (entries.insert uniqueIdKey v).get? lastStartKey = entries.get? lastStartKey := by
    rw [Dictionary.get?_insert, if_neg (by decide)]
  rw [← hget]
  constructor
  · rintro ⟨entries', hshow', hget'⟩
    exact hshow.unique hshow' ▸ hget'
  · exact fun hkept => ⟨_, hshow, hkept⟩

/-- A time that follows the one before, or none, is kept, unless that was the last one. -/
theorem attains_recordLastStart (h : s.host.disk.Faultless) (hd : s.bridge.Documented id s.tree)
    {kept : Option Int64} (hk : s.bridge.ShowsStart s.tree kept)
    (hkept : kept ≠ some Int64.maxValue) (now : Int64) :
    Attains (recordLastStart now) s
      (fun _ s' => s'.bridge = s.bridge ∧ s'.host.stack = s.host.stack) := by
  have hnext : nextStart kept now ≠ none := fun hnone => hkept (nextStart_eq_none_iff.mp hnone)
  obtain ⟨time, htime⟩ := Option.ne_none_iff_exists'.mp hnext
  have hwork : Attains (recordLastStart now) s fun _ _ => True := by
    refine after_bind (after_get (after_bind ((attains_get?_shown h hk).imp fun _ s₁ h₁ => ?_)))
    obtain ⟨rfl, hlooked⟩ := h₁
    obtain ⟨entries, hshow, -⟩ := hk
    obtain ⟨hs₁, -, hpresent, hwritable⟩ := hd
    have ht₁ : s₁.tree = s.tree := hlooked.tree
    rw [← ht₁] at hs₁ hpresent hwritable hshow
    have hset := Context.attains_set_writable (c := s.bridge.appContext) (d := s₁.host.disk)
      (fun k => (congrFun hlooked.faults k).trans (h k)) hs₁
      hpresent.unblocked hwritable hshow lastStartKey (timeValue time)
    rw [htime]
    exact after_storing (hset.imp fun _ _ _ => trivial)
  exact (hwork.and (after_recordLastStart hd.sound now)).mono (fun _ _ h => ⟨h.2.1, h.2.2.1⟩)
    fun _ _ h => h.1

/-- Where neither a time nor its absence is shown, what is in the document is to blame. -/
theorem after_recordLastStart_unshown (h : s.host.disk.Faultless)
    (hd : s.bridge.Documented id s.tree) (hno : ¬ ∃ kept, s.bridge.ShowsStart s.tree kept)
    (now : Int64) :
    After (recordLastStart now) s (fun _ _ => False) (fun e _ => ∃ j, e = .storage (.json j)) := by
  have hjson : After (storing (s.bridge.appContext.get? Int64 lastStartKey)) s (fun _ _ => True)
      (fun e _ => ∃ j, e = .storage (.json j)) :=
    after_storing ((Context.after_get?_of_keeps h hd.keeps _).mono (fun _ _ _ => trivial)
      fun _ _ he => he.imp fun _ he => congrArg BridgeError.storage he)
  refine after_bind (after_get (after_bind (((after_get? _ _).and hjson).mono
    (fun kept s₁ h₁ => ?_) fun _ _ h₁ => h₁.2)))
  obtain ⟨⟨-, entries, hshow, hkept⟩, -⟩ := h₁
  exact absurd ⟨kept, showsStart_of_read hshow hkept⟩ hno

end Bridge

end DeviceBridge

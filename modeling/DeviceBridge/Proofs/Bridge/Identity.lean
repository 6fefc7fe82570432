import DeviceBridge.Proofs.Bridge.Invariant

/-!
# DeviceBridge.Proofs.Bridge.Identity

The unique id of a bridge. An id that is kept is the id of every later node on the same storage
path, whichever bridge makes it (`Bridge.Resolves.eq_of_keeps`), and it is not lost, whatever
happens, as long as nobody starts over (`Site.Later.keeps`).
-/

namespace DeviceBridge

open Files (Path Tree Disk)

/-! ## The id that is kept -/

namespace Bridge

variable {b : Bridge} {t : Tree} {bits : RandomBits} {id id' : UniqueId}

/-- An id that is kept is the id of the next node. -/
theorem Resolves.eq_of_keeps (h : b.Resolves t bits id)
    (hk : b.appContext.Keeps t uniqueIdKey (.string id'.text)) : id = id' := by
  cases h with
  | kept happ hv hid =>
      rw [hk.get?_eq happ, Json.Value.reread_string] at hv
      rw [← Option.some.inj hv] at hid
      exact (Except.ok.inj hid).symm
  | legacy happ hv | random happ hv =>
      rw [hk.get?_eq happ, Json.Value.reread_string] at hv
      contradiction

/-- A new node does not lose the id that is kept. -/
theorem retainsId_init {s : Site} (hs : s.tree.Sound) (bits : RandomBits) :
    Leaves (init bits) s (fun s' => s.RetainsId s') := by
  refine (after_init hs bits).mono (fun _ s' h => ?_) fun _ s' h => ?_
  · obtain ⟨-, id, hmade, hb⟩ := h
    refine ⟨hmade.steady, by rw [hb], fun id' hk => ?_⟩
    rw [← hmade.resolves.eq_of_keeps hk]
    exact hmade.keeps
  · obtain ⟨hb, hnot | ⟨-, id, hstranded⟩⟩ := h
    · exact hnot.retainsId hb
    · exact hstranded.retainsId hb

theorem retainsId_close {s : Site} (hs : s.tree.Sound) :
    Leaves close s (fun s' => s.RetainsId s') :=
  (after_close s).mono
    (fun _ _ h => .of_disk hs h.2.1 (by rw [h.1, config_forget]))
    fun _ _ h => .of_disk hs h.2.1 (by rw [h.1, config_forget])

/-- No request but starting over loses the id that is kept. -/
theorem retainsId_work {s : Site} (hs : s.tree.Sound) {r : Request}
    (hr : ∀ bits resetBits, r ≠ .renew true bits resetBits) :
    Leaves r.work s (fun s' => s.RetainsId s') := by
  have hdisk {x : Bridging Unit}
      (h : Leaves x s fun s' => s.Minor s' ∧ s'.host.disk = s.host.disk) :
      Leaves x s (fun s' => s.RetainsId s') :=
    h.mono (fun _ _ h => .of_disk hs h.2 h.1.config) fun _ _ h => .of_disk hs h.2 h.1.config
  cases r with
  | init bits => exact retainsId_init hs bits
  | close => exact retainsId_close hs
  | renew reset bits resetBits =>
      cases reset with
      | true => exact absurd rfl (hr bits resetBits)
      | false =>
          refine after_bind ((retainsId_close hs).mono (fun _ s₁ h₁ => ?_) fun _ _ h₁ => h₁)
          refine after_bind ((retainsId_init h₁.steady.sound bits).mono
            (fun _ s₂ h₂ => ?_) fun _ s₂ h₂ => h₁.trans h₂)
          exact after_pure (h₁.trans h₂)
  | addEndpoint deviceType id info attributes =>
      exact (after_addEndpoint deviceType id info attributes).mono
        (fun _ _ h => by
          obtain ⟨hd, i, m, n, d, -, -, -, -, -, -, -, hb⟩ := h
          exact .of_disk hs hd (by rw [hb]))
        fun _ _ h => .of_disk hs h.1 (by rw [h.2.2.1])
  | setEndpointState id cluster name value => exact hdisk (after_setEndpointState ..)
  | start now => exact (after_start hs now).mono (fun _ _ h => h.2.1) fun _ _ h => h.2.1
  | openWindow => exact hdisk after_openWindow_minor
  | closeWindow => exact hdisk after_closeWindow
  | removeFabric index => exact hdisk (after_removeFabric index)

end Bridge

/-! ## The same id for good -/

namespace Site

/-- Nobody else writes a document of the namespace, nothing is erased, and nobody starts over. -/
def Careful (s : Site) (a : Action) : Prop :=
  s.SoleWriter a ∧ ∀ bits resetBits, a ≠ .request (.renew true bits resetBits)

/-- The files after anything that bridges with a storage path do, each on a stack of its own and
under faults of its own, as long as nobody starts over. -/
inductive Later (path : Path) (t : Tree) : Tree → Prop
  | refl : Later path t t
  | step {s : Site} {a : Action} : Later path t s.tree → s.bridge.config.storagePath = path →
      s.Careful a → Later path t (s.act a).tree

theorem retainsId_act {s : Site} (hs : s.tree.Sound) {a : Action} (ha : s.Careful a) :
    s.RetainsId (s.act a) := by
  obtain ⟨hsole, hcareful⟩ := ha
  cases a with
  | request r =>
      refine (Bridge.retainsId_work hs fun bits resetBits hr => ?_).stateAfter
      exact hcareful bits resetBits (hr ▸ rfl)
  | deliver k =>
      obtain ⟨hm, hh⟩ := minor_deliver s k
      exact .of_disk hs (congrArg Host.disk hh) hm.config
  | incident i => exact .of_disk hs (leaves_incident s.host hsole.ne_eraseNode).stateAfter.1 rfl
  | outside t => exact ⟨⟨rfl, hsole.1⟩, rfl, fun _ hk => (hsole.2 _ rfl).keeps hk⟩

/-- Where bridges with a storage path keep their own values. -/
def appContextAt (path : Path) : Context :=
  ⟨⟨path, Bridge.namespaceName⟩, Bridge.appContextName⟩

theorem Later.keeps {path : Path} {t t' : Tree} (h : Later path t t') (hs : t.Sound)
    {id : UniqueId} (hk : (appContextAt path).Keeps t Bridge.uniqueIdKey (.string id.text)) :
    t'.Sound ∧ (appContextAt path).Keeps t' Bridge.uniqueIdKey (.string id.text) := by
  induction h with
  | refl => exact ⟨hs, hk⟩
  | step hlater hpath ha ih =>
      subst hpath
      have hr := retainsId_act ih.1 ha
      exact ⟨hr.steady.sound, hr.keeps id ih.2⟩

/-- The identity is stable. Once a bridge has made a node under a unique id, every node that a
bridge with the same storage path makes later has that id, whatever bridges with that path did in
between, whatever failed, and whatever marks the documents bear. -/
theorem identity_stable {s₀ s₁ s : Site} {bits : RandomBits} {id : UniqueId} {t : Tree}
    (hsound : s₀.tree.Sound) (hmade : Bridge.init bits s₀ = .ok () s₁)
    (hid : s₁.bridge.uniqueId = some id)
    (hlater : Later s₀.bridge.config.storagePath s₁.tree t) (htree : s.tree = t)
    (hpath : s.bridge.config.storagePath = s₀.bridge.config.storagePath) :
    (∀ bits' s', Bridge.init bits' s = .ok () s' → s'.bridge.uniqueId = some id) ∧
      ∀ bits' resetBits s', Bridge.renew false bits' resetBits s = .ok () s' →
        s'.bridge.uniqueId = some id := by
  subst htree
  obtain ⟨-, id₁, hmade₁, hb₁⟩ := (Bridge.after_init hsound bits).of_ok hmade
  have hid₁ : s₁.bridge.uniqueId = some id₁ := by rw [hb₁]
  obtain rfl := Option.some.inj (hid₁.symm.trans hid)
  obtain ⟨hs, hk⟩ := hlater.keeps hmade₁.steady.sound hmade₁.keeps
  rw [← hpath] at hk
  have hinit (s : Site) (hs : s.tree.Sound)
      (hk : s.bridge.appContext.Keeps s.tree Bridge.uniqueIdKey (.string id₁.text))
      (bits' : RandomBits) : After (Bridge.init bits') s
        (fun _ s' => s'.bridge.uniqueId = some id₁) fun _ _ => True := by
    refine (Bridge.after_init hs bits').mono (fun _ s' h => ?_) fun _ _ _ => trivial
    obtain ⟨-, id', hmade', hb'⟩ := h
    rw [hb', hmade'.resolves.eq_of_keeps hk]
  refine ⟨fun bits' s' hx => (hinit s hs hk bits').of_ok hx, fun bits' resetBits s' hx => ?_⟩
  have hrenew : After (Bridge.renew false bits' resetBits) s
      (fun _ s' => s'.bridge.uniqueId = some id₁) fun _ _ => True := by
    refine after_bind ((Bridge.retainsId_close hs).mono (fun _ s₁ h₁ => ?_) fun _ _ _ => trivial)
    have hk₁ : s₁.bridge.appContext.Keeps s₁.tree Bridge.uniqueIdKey (.string id₁.text) := by
      rw [h₁.appContext]
      exact h₁.keeps id₁ hk
    exact after_bind ((hinit s₁ h₁.steady.sound hk₁ bits').mono (fun _ _ h₂ => after_pure h₂)
      fun _ _ h₂ => h₂)
  exact hrenew.of_ok hx

/-- What a bridge does with care belongs to what happens later. -/
theorem Later.run {path : Path} {t : Tree} {s : Site} {as : List Action} (hs : s.tree.Sound)
    (h : Later path t s.tree) (hpath : s.bridge.config.storagePath = path)
    (has : s.Admits Careful as) : Later path t (s.run as).tree := by
  induction as generalizing s with
  | nil => exact h
  | cons a as ih =>
      obtain ⟨ha, has⟩ := has
      have hact := retainsId_act hs ha
      exact ih hact.steady.sound (.step h hpath ha) (hact.config ▸ hpath) has

/-- A bridge gets a device, refuses another one, is started and closed. -/
def aDay : List Action :=
  [.request (.addEndpoint "Fan" ⟨"f"⟩ {} []), .request (.addEndpoint "Kettle" ⟨"k"⟩ {} []),
    .request (.start 5), .request .close]

/-- A new bridge, one access of which to the files will fail. -/
def unlucky (t : Tree) : Site where
  host.disk := {
    tree := t
    faults := fun k => if k = 2 then some { error := .denied, ne_notFound := nofun } else none }
  bridge.config := { storagePath := ⟨"/v/a"⟩ }

/-- A bridge makes its first node and goes through a day. Another bridge on the same path fails to
make a node, since the disk fails, and then makes one. -/
theorem identity_stable_of_two :
    ∃ s₁ s₂ id, Bridge.init ⟨0, 0⟩ ⟨{}, { config := { storagePath := ⟨"/v/a"⟩ } }⟩ = .ok () s₁ ∧
      s₁.bridge.uniqueId = some id ∧
      succeeds (Bridge.init ⟨1, 1⟩) (unlucky (s₁.run aDay).tree) = false ∧
      Bridge.init ⟨2, 2⟩ ((unlucky (s₁.run aDay).tree).act (.request (.init ⟨1, 1⟩))) = .ok () s₂ ∧
      s₂.bridge.uniqueId = some id := by
  have hmade := eq_ok_of_succeeds (show succeeds (Bridge.init ⟨0, 0⟩)
    ⟨{}, { config := { storagePath := ⟨"/v/a"⟩ } }⟩ = true by decide +kernel)
  obtain ⟨hfails, hnext⟩ : let t := (run (stateAfter (Bridge.init ⟨0, 0⟩)
      ⟨{}, { config := { storagePath := ⟨"/v/a"⟩ } }⟩) aDay).tree
      succeeds (Bridge.init ⟨1, 1⟩) (unlucky t) = false ∧
        succeeds (Bridge.init ⟨2, 2⟩) ((unlucky t).act (.request (.init ⟨1, 1⟩))) = true := by
    decide +kernel
  obtain ⟨-, id, hmade₁, hb⟩ := (Bridge.after_init Tree.sound_nil _).of_ok hmade
  generalize stateAfter (Bridge.init ⟨0, 0⟩) _ = s₁ at hmade hmade₁ hb hfails hnext
  have hid : s₁.bridge.uniqueId = some id := by rw [hb]
  have hpath : s₁.bridge.config.storagePath = ⟨"/v/a"⟩ := by rw [hb]
  have hday : Later ⟨"/v/a"⟩ s₁.tree (s₁.run aDay).tree :=
    .run hmade₁.steady.sound .refl hpath
      ⟨⟨trivial, nofun⟩, ⟨trivial, nofun⟩, ⟨trivial, nofun⟩, ⟨trivial, nofun⟩, trivial⟩
  have hkept : (appContextAt ⟨"/v/a"⟩).Keeps s₁.tree Bridge.uniqueIdKey (.string id.text) :=
    hmade₁.keeps
  obtain ⟨hsound, -⟩ := hday.keeps hmade₁.steady.sound hkept
  refine ⟨s₁, _, id, hmade, hid, hfails, eq_ok_of_succeeds hnext, ?_⟩
  generalize (s₁.run aDay).tree = t at hday hsound hnext ⊢
  have hcareful : (unlucky t).Careful (.request (.init ⟨1, 1⟩)) := ⟨trivial, nofun⟩
  have hpath' := congrArg BridgeConfig.storagePath (retainsId_act hsound hcareful).config
  have hlater : Later ⟨"/v/a"⟩ s₁.tree ((unlucky t).act (.request (.init ⟨1, 1⟩))).tree :=
    .step (s := unlucky t) hday rfl hcareful
  generalize (unlucky t).act (.request (.init ⟨1, 1⟩)) = s at hpath' hlater hnext ⊢
  exact (identity_stable Tree.sound_nil hmade hid hlater rfl hpath').1 ⟨2, 2⟩ _
    (eq_ok_of_succeeds hnext)

end Site

end DeviceBridge

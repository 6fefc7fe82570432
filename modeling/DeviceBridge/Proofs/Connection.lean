import DeviceBridge.Connection
import DeviceBridge.Proofs.Json.Codec

/-!
# DeviceBridge.Proofs.Connection

What is left of a span of time on the wire. A span travels as the number of its whole milliseconds,
in a word of 64 bits, and a span may have more of them than the word can count: up to a thousand
words full. What is read back is the span of as many milliseconds as are left over when full words
are taken away (`Duration.decode_encode`), so options come back as they were sent only as long as
none of their spans fills a word.
-/

namespace DeviceBridge

open Json (encode decode)

namespace Duration

variable {d e : Duration}

instance : LE Duration := ⟨fun d e => d.nanoseconds ≤ e.nanoseconds⟩

/-- The number of whole milliseconds in a span. -/
def count (d : Duration) : Nat := d.nanoseconds / 1_000_000

/-- A span of nothing but whole milliseconds. -/
def Whole (d : Duration) : Prop := 1_000_000 ∣ d.nanoseconds

/-- What is left of a span on the wire. -/
def wrapped (d : Duration) : Duration := ofMillis d.millis

theorem ext_nanoseconds (h : d.nanoseconds = e.nanoseconds) : d = e := by
  cases d
  cases e
  cases h
  rfl

theorem toNat_millis (d : Duration) : d.millis.toNat = d.count % UInt64.size :=
  UInt64.toNat_ofNat'

/-- The milliseconds of a span are those of which it was made. -/
theorem millis_ofMillis (ms : UInt64) : (ofMillis ms).millis = ms := by
  simp [millis, ofMillis]

theorem nanoseconds_wrapped (d : Duration) :
    d.wrapped.nanoseconds = d.count % UInt64.size * 1_000_000 :=
  congrArg (· * 1_000_000) d.toNat_millis

/-- Nothing of a span is lost if it is of whole milliseconds, and few enough of them. -/
theorem wrapped_eq_iff : d.wrapped = d ↔ d.Whole ∧ d.count < UInt64.size := by
  have hsize : 0 < UInt64.size := by decide
  constructor
  · intro h
    have hnanoseconds := (congrArg nanoseconds h).symm.trans d.nanoseconds_wrapped
    refine ⟨⟨_, hnanoseconds.trans (Nat.mul_comm _ _)⟩, ?_⟩
    have hlt := Nat.mod_lt d.count hsize
    rw [count, hnanoseconds, Nat.mul_div_cancel _ (by decide)]
    exact hlt
  · rintro ⟨hwhole, hlt⟩
    apply ext_nanoseconds
    rw [nanoseconds_wrapped, Nat.mod_eq_of_lt hlt]
    exact Nat.div_mul_cancel hwhole

theorem decode_encode (d : Duration) : decode (encode d) = .ok d.wrapped := by
  have hread : decode (encode d) = (decode (encode d.millis)).map ofMillis := rfl
  have hmillis : decode (encode d.millis) = .ok d.millis :=
    (Json.Faithful.kept 0 d.millis).reads _ (.refl _)
  rw [hread, hmillis]
  rfl

theorem decode_encode_option (d : Option Duration) :
    decode (encode d) = .ok (d.map wrapped) := by
  cases d with
  | none => rfl
  | some d =>
      have hne : encode (some d) ≠ .null := nofun
      rw [Json.decode_option hne]
      exact Json.map_eq_ok.mpr ⟨_, d.decode_encode, rfl⟩

theorem map_wrapped_eq_iff {d : Option Duration} :
    d.map wrapped = d ↔ ∀ e ∈ d, e.Whole ∧ e.count < UInt64.size := by
  cases d <;> simp [wrapped_eq_iff]

/-- Spans that fill equally many words are counted in their order. -/
theorem millis_le_millis (h : d ≤ e) (hfull : d.count / UInt64.size = e.count / UInt64.size) :
    d.millis ≤ e.millis := by
  have hcount : d.count ≤ e.count := Nat.div_le_div_right h
  rw [UInt64.le_iff_toNat_le, toNat_millis, toNat_millis]
  have hd := Nat.div_add_mod d.count UInt64.size
  have he := Nat.div_add_mod e.count UInt64.size
  rw [hfull] at hd
  omega

/-- The millisecond that fills a word takes a span from the longest to the shortest. -/
theorem millis_lt_millis (hlast : d.count + 1 = e.count) (hfull : UInt64.size ∣ e.count) :
    e.millis < d.millis := by
  have hzero : e.count % UInt64.size = 0 := Nat.mod_eq_zero_of_dvd hfull
  have hsize : UInt64.size = 0x1_0000_0000_0000_0000 := rfl
  rw [UInt64.lt_iff_toNat_lt, toNat_millis, toNat_millis, hzero]
  rw [hsize] at hzero ⊢
  omega

/-- The shortest span that fills a word. -/
def wordful : Duration := ⟨UInt64.size * 1_000_000, by decide⟩

end Duration

namespace ConnectOptions

/-- The spans of time among the options. -/
def durations (o : ConnectOptions) : List Duration :=
  o.connectTimeout.toList ++ o.subscribeMinIntervalFloor.toList ++
    o.subscribeMaxIntervalCeiling.toList

/-- What is left of the options on the wire. -/
def wrapped (o : ConnectOptions) : ConnectOptions where
  autoSubscribe := o.autoSubscribe
  connectTimeout := o.connectTimeout.map Duration.wrapped
  subscribeMinIntervalFloor := o.subscribeMinIntervalFloor.map Duration.wrapped
  subscribeMaxIntervalCeiling := o.subscribeMaxIntervalCeiling.map Duration.wrapped

theorem decode_encode (o : ConnectOptions) : decode (encode o) = .ok o.wrapped := by
  have hread : decode (encode o) = (do
      return {
        autoSubscribe := ← decode (encode o.autoSubscribe)
        connectTimeout := ← decode (encode o.connectTimeout)
        subscribeMinIntervalFloor := ← decode (encode o.subscribeMinIntervalFloor)
        subscribeMaxIntervalCeiling := ← decode (encode o.subscribeMaxIntervalCeiling) } :
      Except Json.Error ConnectOptions) := rfl
  rw [hread, Duration.decode_encode_option, Duration.decode_encode_option,
    Duration.decode_encode_option]
  rfl

theorem wrapped_eq_iff {o : ConnectOptions} :
    o.wrapped = o ↔ ∀ d ∈ o.durations, d.Whole ∧ d.count < UInt64.size := by
  have hfields : o.wrapped = o ↔
      o.connectTimeout.map Duration.wrapped = o.connectTimeout ∧
      o.subscribeMinIntervalFloor.map Duration.wrapped = o.subscribeMinIntervalFloor ∧
      o.subscribeMaxIntervalCeiling.map Duration.wrapped = o.subscribeMaxIntervalCeiling := by
    cases o
    simp [wrapped]
  simp only [hfields, Duration.map_wrapped_eq_iff, durations, List.forall_mem_append,
    Option.mem_toList, Option.mem_def, and_assoc]

/-- Options always come back from the wire, with spans of as many milliseconds as are left over when
full words are taken away. They come back as they were exactly if all their spans are of whole
milliseconds and fill no word. The order of spans is kept among those that fill equally many words,
and lost where another word is full. -/
theorem wraps_on_wire (o : ConnectOptions) (d e : Duration) :
    decode (encode o) = .ok o.wrapped ∧
    (decode (encode o) = .ok o ↔ ∀ d ∈ o.durations, d.Whole ∧ d.count < UInt64.size) ∧
    d.millis.toNat = d.count % UInt64.size ∧
    (d ≤ e → d.count / UInt64.size = e.count / UInt64.size → d.millis ≤ e.millis) ∧
    (d.count + 1 = e.count → UInt64.size ∣ e.count → e.millis < d.millis) := by
  refine ⟨o.decode_encode, ?_, d.toNat_millis, Duration.millis_le_millis, Duration.millis_lt_millis⟩
  rw [decode_encode, Except.ok.injEq, wrapped_eq_iff]

/-- A timeout of exactly one full word of milliseconds comes back as no time at all, and is counted
below the millisecond before it. -/
theorem wraps_on_wire_of_wordful :
    decode (encode ({ connectTimeout := some .wordful } : ConnectOptions)) =
      .ok ({ connectTimeout := some (.ofMillis 0) } : ConnectOptions) ∧
    ¬ decode (encode ({ connectTimeout := some .wordful } : ConnectOptions)) =
      .ok ({ connectTimeout := some .wordful } : ConnectOptions) ∧
    Duration.ofMillis (-1) ≤ .wordful ∧
      Duration.wordful.millis < (Duration.ofMillis (-1)).millis := by
  obtain ⟨hread, hsame, -, -, hlast⟩ :=
    wraps_on_wire { connectTimeout := some .wordful } (.ofMillis (-1)) .wordful
  refine ⟨hread, fun h => ?_, ?_, hlast ?_ ?_⟩
  · have hcount := (hsame.mp h .wordful (by decide)).2
    exact absurd hcount (by decide)
  · show (Duration.ofMillis (-1)).nanoseconds ≤ Duration.wordful.nanoseconds
    decide
  · decide
  · decide

end ConnectOptions

end DeviceBridge

import RemoteTerm.Frontend.MessageIdentity
import RemoteTerm.Library.Numbering

/-!
# The keys of telemetry sensors

A snapshot's sensor readings are published in one flat object. The key of a reading is
made of the sensor's type and channel, and of a number from the second reading of the
same type and channel on. Readings of a position are published elsewhere.

## Implementation notes

A reading is any value that is no dictionary, or a dictionary. A channel is a natural
number, a type any text.
-/

namespace RemoteTerm

open Library

namespace LppKeys

variable {V : Type}

/-- The value of a reading. -/
inductive Reading (V : Type) where
  | plain (value : V)
  | dict (fields : OrderedMap Text V)

/-- A sensor of a snapshot, with `none` for a field that is absent. -/
structure Sensor (V : Type) where
  typeName : Option Text
  channel : Option Nat
  value : Option (Reading V)

/-- The part of a snapshot that is read here, with `none` for a list that is absent or null. -/
structure Telemetry (V : Type) where
  lppSensors : Option (List (Sensor V))

/-- A sensor with its key and its number. -/
structure Assigned (V : Type) where
  sensor : Sensor V
  key : Text
  occurrence : Nat

/-- `_lpp_sensor_key`. -/
def lppSensorKey (typeName : Text) (channel : Nat) : Text :=
  "lpp_".toList ++ typeName ++ "_ch".toList ++ decimal channel

/-- `_is_geo_sensor`. -/
def isGeoSensor (sensor : Sensor V) : Bool :=
  if sensor.typeName = some "gps".toList then true
  else
    match sensor.value with
    | some (.dict fields) =>
        (fields.get? "latitude".toList).isSome && (fields.get? "longitude".toList).isSome
    | _ => false

/-- The key of an occurrence. -/
def numberedKey (base : Text) (n : Nat) : Text :=
  if n = 1 then base else base ++ "_".toList ++ decimal n

/-- The body of the loop of `_assign_lpp_keys`. -/
def assignStep (acc : OrderedMap Text Nat × List (Assigned V)) (sensor : Sensor V) :
    OrderedMap Text Nat × List (Assigned V) :=
  let (counts, result) := acc
  if isGeoSensor sensor then (counts, result)
  else
    let base := lppSensorKey (sensor.typeName.getD "unknown".toList) (sensor.channel.getD 0)
    let n := (counts.get? base).getD 0 + 1
    (counts.set base n, result ++ [⟨sensor, numberedKey base n, n⟩])

/-- `_assign_lpp_keys`. -/
def assignLppKeys (lppSensors : List (Sensor V)) : List (Assigned V) :=
  (lppSensors.foldl assignStep (OrderedMap.empty, [])).2

/-- `_contact_telemetry_payload`. -/
def contactTelemetryPayload (data : Telemetry V) : OrderedMap Text (Option (Reading V)) :=
  OrderedMap.ofList
    ((assignLppKeys (data.lppSensors.getD [])).map fun a => (a.key, a.sensor.value))

/-! ### Decoding a key -/

/-- A base key ends with a channel after the letter `h`. -/
theorem lppSensorKey_eq (typeName : Text) (channel : Nat) :
    lppSensorKey typeName channel =
      ("lpp_".toList ++ typeName ++ "_c".toList) ++ 'h' :: decimal channel := by
  simp [lppSensorKey]

theorem numberedKey_eq_of_ne (base : Text) {n : Nat} (h : n ≠ 1) :
    numberedKey base n = base ++ '_' :: decimal n := by
  simp [numberedKey, h]

/-- The decimals at the end of a text, behind a character that is no digit. -/
theorem append_decimal_inj {a b : Text} {x y : Char} {m n : Nat} (hx : ¬ x.isDigit)
    (hy : ¬ y.isDigit) (h : a ++ x :: decimal m = b ++ y :: decimal n) :
    a = b ∧ x = y ∧ m = n := by
  obtain ⟨hinit, hchar, hdigits⟩ := append_cons_inj_of_forall (D := fun c => c.isDigit)
    (fun _ => isDigit_of_mem_decimal) (fun _ => isDigit_of_mem_decimal) hx hy h
  exact ⟨hinit, hchar, decimal_inj hdigits⟩

theorem lppSensorKey_inj {t t' : Text} {c c' : Nat} (h : lppSensorKey t c = lppSensorKey t' c') :
    t = t' ∧ c = c' := by
  rw [lppSensorKey_eq, lppSensorKey_eq] at h
  obtain ⟨htype, -, hchannel⟩ := append_decimal_inj (by decide) (by decide) h
  exact ⟨by simpa using htype, hchannel⟩

/-- A base key is no numbered key. -/
theorem lppSensorKey_ne_append (t b : Text) (c n : Nat) :
    lppSensorKey t c ≠ b ++ '_' :: decimal n := by
  intro h
  rw [lppSensorKey_eq] at h
  obtain ⟨-, hchar, -⟩ := append_decimal_inj (by decide) (by decide) h
  exact absurd hchar (by decide)

/-- The type, the channel and the number can be read off a key. -/
theorem numberedKey_inj {t t' : Text} {c c' n n' : Nat}
    (h : numberedKey (lppSensorKey t c) n = numberedKey (lppSensorKey t' c') n') :
    (t = t' ∧ c = c') ∧ n = n' := by
  by_cases hn : n = 1
  · by_cases hn' : n' = 1
    · simp only [numberedKey, hn, hn', if_true] at h
      exact ⟨lppSensorKey_inj h, hn.trans hn'.symm⟩
    · rw [numberedKey_eq_of_ne _ hn', numberedKey, if_pos hn] at h
      exact absurd h (lppSensorKey_ne_append _ _ _ _)
  · by_cases hn' : n' = 1
    · rw [numberedKey_eq_of_ne _ hn, numberedKey, if_pos hn'] at h
      exact absurd h.symm (lppSensorKey_ne_append _ _ _ _)
    · rw [numberedKey_eq_of_ne _ hn, numberedKey_eq_of_ne _ hn'] at h
      obtain ⟨hbase, -, hnumber⟩ := append_decimal_inj (by decide) (by decide) h
      exact ⟨lppSensorKey_inj hbase, hnumber⟩

/-! ### The assignment numbers the sensors -/

/-- What the sensors of a snapshot are counted by: type and channel. -/
def identity (sensor : Sensor V) : Text × Nat :=
  (sensor.typeName.getD "unknown".toList, sensor.channel.getD 0)

/-- The base key of an identity. -/
def baseKey (k : Text × Nat) : Text := lppSensorKey k.1 k.2

theorem baseKey_injective : Function.Injective baseKey := by
  intro k k' h
  obtain ⟨htype, hchannel⟩ := lppSensorKey_inj h
  exact Prod.ext htype hchannel

/-- The entry of a numbered sensor. -/
def assigned (p : Sensor V × Nat) : Assigned V :=
  ⟨p.1, numberedKey (baseKey (identity p.1)) p.2, p.2⟩

/-- The sensors that are published in the flat object. -/
def flatSensors (sensors : List (Sensor V)) : List (Sensor V) :=
  sensors.filter fun s => !isGeoSensor s

theorem assignStep_of_geo {sensor : Sensor V} (h : isGeoSensor sensor)
    (counts : OrderedMap Text Nat) (result : List (Assigned V)) :
    assignStep (counts, result) sensor = (counts, result) := by
  simp [assignStep, h]

theorem assignStep_of_flat {sensor : Sensor V} (h : ¬ isGeoSensor sensor)
    {counts : OrderedMap Text Nat} {before : List (Sensor V)}
    (hcounts : Tallies identity baseKey counts before) (result : List (Assigned V)) :
    assignStep (counts, result) sensor =
      (counts.set (baseKey (identity sensor))
          ((counts.get? (baseKey (identity sensor))).getD 0 + 1),
        result ++ [assigned (sensor, tally identity before (identity sensor) + 1)]) := by
  rw [← hcounts (identity sensor)]
  simp only [assignStep, h, assigned]
  rfl

/-- The loop numbers the sensors that it keeps by type and channel. -/
theorem foldl_assignStep (sensors before : List (Sensor V)) {counts : OrderedMap Text Nat}
    (hcounts : Tallies identity baseKey counts before) (result : List (Assigned V)) :
    (sensors.foldl assignStep (counts, result)).2 =
      result ++ (numberFrom identity before (flatSensors sensors)).map assigned := by
  induction sensors generalizing before counts result with
  | nil => simp [flatSensors, numberFrom]
  | cons sensor sensors ih =>
      rw [List.foldl_cons]
      by_cases hgeo : isGeoSensor sensor
      · rw [assignStep_of_geo hgeo, ih before hcounts]
        simp [flatSensors, hgeo]
      · rw [assignStep_of_flat hgeo hcounts, ih _ (hcounts.set baseKey_injective sensor)]
        simp [flatSensors, hgeo, numberFrom]

theorem assignLppKeys_eq (sensors : List (Sensor V)) :
    assignLppKeys sensors = (numberFrom identity [] (flatSensors sensors)).map assigned := by
  rw [assignLppKeys, foldl_assignStep sensors [] Tallies.empty, List.nil_append]

/-! ### No reading overwrites another one -/

theorem nodup_keys (sensors : List (Sensor V)) :
    ((assignLppKeys sensors).map Assigned.key).Nodup := by
  have hpairs : ((numberFrom identity [] (flatSensors sensors)).map
      fun p => (identity p.1, p.2)).Nodup := nodup_numberFrom [] (flatSensors sensors)
  have hkeys : (assignLppKeys sensors).map Assigned.key =
      ((numberFrom identity [] (flatSensors sensors)).map
        fun p => (identity p.1, p.2)).map fun k => numberedKey (baseKey k.1) k.2 := by
    rw [assignLppKeys_eq, List.map_map, List.map_map]
    rfl
  rw [hkeys]
  apply hpairs.map
  intro k k' h
  obtain ⟨⟨htype, hchannel⟩, hnumber⟩ := numberedKey_inj h
  exact Prod.ext (Prod.ext htype hchannel) hnumber

theorem map_sensor_assignLppKeys (sensors : List (Sensor V)) :
    (assignLppKeys sensors).map Assigned.sensor = flatSensors sensors := by
  rw [assignLppKeys_eq, List.map_map]
  exact map_fst_numberFrom [] (flatSensors sensors)

theorem entries_contactTelemetryPayload (data : Telemetry V) :
    (contactTelemetryPayload data).entries =
      (assignLppKeys (data.lppSensors.getD [])).map fun a => (a.key, a.sensor.value) := by
  apply OrderedMap.entries_ofList
  rw [List.map_map]
  exact nodup_keys _

/-- Every sensor that is not a position has a key of its own, and the flat object keeps one
entry with its value for each of them. -/
theorem lppKeys_collisionFree (sensors : List (Sensor V)) :
    ((assignLppKeys sensors).map Assigned.key).Nodup ∧
      (assignLppKeys sensors).map Assigned.sensor = sensors.filter (fun s => !isGeoSensor s) ∧
      (contactTelemetryPayload ⟨some sensors⟩).entries =
        (assignLppKeys sensors).map fun a => (a.key, a.sensor.value) :=
  ⟨nodup_keys sensors, map_sensor_assignLppKeys sensors,
    entries_contactTelemetryPayload ⟨some sensors⟩⟩

end LppKeys

end RemoteTerm

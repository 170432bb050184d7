import TruckLock.CamMode
import TruckLock.Json

/-!
# What `/status` reports of the settings

The web page initialises its controls from the text of `status_handler`. The
settings are signed bytes, which the text shows as unsigned numbers.
-/
namespace Cam

open Firmware Spec

/-- The values that the web page has asked for. -/
structure Values where
  faceDetect : Int := 1
  faceEnroll : Int := 0
  faceRecognize : Int := 1
  flash : Int := 0
  deriving DecidableEq, Repr

structure Values.InRange (v : Values) : Prop where
  faceDetect : v.faceDetect = 0 ∨ v.faceDetect = 1
  faceEnroll : v.faceEnroll = 0 ∨ v.faceEnroll = 1
  faceRecognize : v.faceRecognize = 0 ∨ v.faceRecognize = 1
  flash : 0 ≤ v.flash ∧ v.flash ≤ 255

/-- The values that the page offers. -/
def Control.InRange : Control → Prop
  | .faceDetect val => val = 0 ∨ val = 1
  | .faceEnroll val => val = 0 ∨ val = 1
  | .faceRecognize val => val = 0 ∨ val = 1
  | .flash val => 0 ≤ val ∧ val ≤ 255
  | _ => True

/-- What a request means: the value is the last one written, no recognition goes without detection. -/
def Values.establish (v : Values) : Control → Values
  | .faceDetect val =>
    { v with faceDetect := val, faceRecognize := if val = 0 then 0 else v.faceRecognize }
  | .faceEnroll val => { v with faceEnroll := val }
  | .faceRecognize val =>
    { v with faceRecognize := val, faceDetect := if val = 1 then 1 else v.faceDetect }
  | .flash val => { v with flash := val }
  | _ => v

def Values.established (v : Values) (cs : List Control) : Values := cs.foldl Values.establish v

def Control.flash? : Control → Option Int
  | .flash val => some val
  | _ => none

/-- The last flash value that is written, or else the one before. -/
def lastFlash (val : Int) (cs : List Control) : Int := ((cs.filterMap Control.flash?).getLast?).getD val

/-- The variables that hold the values. -/
def Values.settings (v : Values) : Settings where
  detectionEnabled := Int8.ofInt v.faceDetect
  recognitionEnabled := Int8.ofInt v.faceRecognize
  isEnrolling := Int8.ofInt v.faceEnroll
  flashValue := Int8.ofInt v.flash

/-- The text is a JSON object with these values in the four fields. -/
def Shows (text : Text) (v : Values) : Prop :=
  ∃ ms, Json.read text = some ms ∧
    ms.lookup "face_detect".toList = some v.faceDetect ∧
    ms.lookup "face_enroll".toList = some v.faceEnroll ∧
    ms.lookup "face_recognize".toList = some v.faceRecognize ∧
    ms.lookup "flash".toList = some v.flash

/-- The text is a JSON object with the three flags among these values. -/
def ShowsFlags (text : Text) (v : Values) : Prop :=
  ∃ ms, Json.read text = some ms ∧
    ms.lookup "face_detect".toList = some v.faceDetect ∧
    ms.lookup "face_enroll".toList = some v.faceEnroll ∧
    ms.lookup "face_recognize".toList = some v.faceRecognize

namespace Values

theorem InRange.establish {v : Values} (h : v.InRange) {c : Control} (hc : c.InRange) :
    (v.establish c).InRange := by
  cases c with
  | faceDetect val =>
    refine ⟨hc, h.faceEnroll, ?_, h.flash⟩
    by_cases hz : val = 0
    · exact .inl (if_pos hz)
    · simpa [Values.establish, hz] using h.faceRecognize
  | faceEnroll val => exact ⟨h.faceDetect, hc, h.faceRecognize, h.flash⟩
  | faceRecognize val =>
    refine ⟨?_, h.faceEnroll, hc, h.flash⟩
    by_cases hz : val = 1
    · exact .inr (if_pos hz)
    · simpa [Values.establish, hz] using h.faceDetect
  | flash val => exact ⟨h.faceDetect, h.faceEnroll, h.faceRecognize, hc⟩
  | _ => exact h

theorem settings_establish (v : Values) {c : Control} (hc : c.InRange) :
    (v.establish c).settings = v.settings.request c := by
  cases c with
  | faceDetect val =>
    rcases hc with rfl | rfl
    · rfl
    · rfl
  | faceRecognize val =>
    rcases hc with rfl | rfl
    · rfl
    · rfl
  | _ => rfl

theorem InRange.established {v : Values} (h : v.InRange) {cs : List Control} (hcs : ∀ c ∈ cs, c.InRange) :
    (v.established cs).InRange := by
  induction cs generalizing v with
  | nil => exact h
  | cons c cs ih => exact ih (h.establish (hcs c (by simp))) fun d hd => hcs d (by simp [hd])

theorem settings_established (v : Values) {cs : List Control} (hcs : ∀ c ∈ cs, c.InRange) :
    (v.established cs).settings = v.settings.requests cs := by
  induction cs generalizing v with
  | nil => rfl
  | cons c cs ih =>
    have h := ih (v.establish c) fun d hd => hcs d (by simp [hd])
    rwa [settings_establish v (hcs c (by simp))] at h

theorem flash_established (v : Values) (cs : List Control) :
    (v.established cs).flash = lastFlash v.flash cs := by
  induction cs generalizing v with
  | nil => rfl
  | cons c cs ih =>
    have h := ih (v.establish c)
    cases c with
    | flash val =>
      refine h.trans ?_
      simp [lastFlash, Control.flash?, Values.establish, List.getLast?_cons]
    | _ => exact h

end Values

/-- The settings and the text. -/
structure Report where
  settings : Settings
  jsonResponse : Text

def State.report (s : State) : Report := ⟨s.settings, s.jsonResponse⟩

/-- The text begins with these members, a comma after each. -/
def begun (ms : List Json.Member) : Text := '{' :: ms.flatMap fun m => Json.writeMember m ++ [',']

theorem begun_append (ms : List Json.Member) (m : Json.Member) :
    begun (ms ++ [m]) = begun ms ++ (Json.writeMember m ++ [',']) := by
  simp [begun]

/-- The members that show the sensor. -/
def Sensed (ms : List Json.Member) : Prop := ∃ a b c d : Int,
  ms = [("framesize".toList, a), ("quality".toList, b), ("brightness".toList, c), ("contrast".toList, d)]

/-- The members that show the settings. -/
def Settings.members (v : Settings) : List Json.Member :=
  [("face_detect".toList, unsigned v.detectionEnabled.toInt), ("face_enroll".toList, unsigned v.isEnrolling.toInt),
    ("face_recognize".toList, unsigned v.recognitionEnabled.toInt), ("flash".toList, unsigned v.flashValue.toInt)]

/-- The settings are these, and so is the text. -/
structure Held (v : Settings) (P : Text → Prop) (r : Report) : Prop where
  settings : r.settings = v
  text : P r.jsonResponse

abbrev Reports (Q A : Report → Prop) (c : Sketch) (B : Report → Prop) : Prop :=
  (call Q).Leads State.report A c B

section

variable {Q : Report → Prop} {v : Settings} {P R : Text → Prop}

theorem reports_set {f : State → State} (hf : ∀ s, s.settings = v → P s.jsonResponse →
    (f s).settings = v ∧ R (f s).jsonResponse) : Reports Q (Held v P) (.set f) (Held v R) :=
  Leads.step (fun _ _ => trivial) fun _ s hs _ =>
    ⟨trivial, (hf s hs.settings hs.text).1, (hf s hs.settings hs.text).2⟩

theorem reports_sprintf {name : String} {number : Env → State → Text} {rest : Text}
    (h : ∀ i s w, s.settings = v → P w →
      R (w ++ ('"' :: (name.toList ++ '"' :: ':' :: number i s) ++ rest))) :
    Reports Q (Held v P) (sprintf name number rest) (Held v R) := by
  refine Leads.step (fun _ _ => trivial) fun i s hs _ => ⟨trivial, hs.settings, ?_⟩
  have ht := h i s s.jsonResponse hs.settings hs.text
  rwa [← List.append_assoc] at ht

theorem writeMember_nat (name : String) (n : Nat) (rest : Text) :
    '"' :: (name.toList ++ '"' :: ':' :: (toString n).toList) ++ rest =
      Json.writeMember (name.toList, n) ++ rest := by
  simp [Json.writeMember, Json.writeName, Json.writeInt_ofNat]

theorem writeMember_int (name : String) (n : Int) (rest : Text) :
    '"' :: (name.toList ++ '"' :: ':' :: (toString n).toList) ++ rest =
      Json.writeMember (name.toList, n) ++ rest := by
  simp [Json.writeMember, Json.writeName, Json.writeInt]

/-- One more member and a comma. -/
theorem reports_member {name : String} {number : Env → State → Text} {S T : List Json.Member → Prop}
    (h : ∀ i s ms, s.settings = v → S ms → ∃ n : Int, T (ms ++ [(name.toList, n)]) ∧
      '"' :: (name.toList ++ '"' :: ':' :: number i s) ++ [','] = Json.writeMember (name.toList, n) ++ [',']) :
    Reports Q (Held v fun w => ∃ ms, S ms ∧ w = begun ms) (sprintf name number [','])
      (Held v fun w => ∃ ms, T ms ∧ w = begun ms) := by
  refine reports_sprintf fun i s w hs hw => ?_
  obtain ⟨ms, hms, rfl⟩ := hw
  obtain ⟨n, hn, ht⟩ := h i s ms hs hms
  exact ⟨_, hn, by rw [ht, begun_append]⟩

theorem reports_statusHandler : Reports Q (Held v fun _ => True) statusHandler
    (Held v fun w => ∃ ms, Sensed ms ∧ w = Json.write (ms ++ v.members)) := by
  refine .seq (reports_set (R := fun w => ∃ ms, ms = [] ∧ w = begun ms) fun s hs _ => ⟨hs, [], rfl, rfl⟩) ?_
  refine .seq (reports_member (T := fun ms => ∃ a : Int, ms = [("framesize".toList, a)]) ?_) ?_
  · rintro i s ms - rfl
    exact ⟨_, ⟨_, rfl⟩, writeMember_nat _ _ _⟩
  refine .seq (reports_member (T := fun ms => ∃ a b : Int,
    ms = [("framesize".toList, a), ("quality".toList, b)]) ?_) ?_
  · rintro i s ms - ⟨a, rfl⟩
    exact ⟨_, ⟨a, _, rfl⟩, writeMember_nat _ _ _⟩
  refine .seq (reports_member (T := fun ms => ∃ a b c : Int,
    ms = [("framesize".toList, a), ("quality".toList, b), ("brightness".toList, c)]) ?_) ?_
  · rintro i s ms - ⟨a, b, rfl⟩
    exact ⟨_, ⟨a, b, _, rfl⟩, writeMember_int _ _ _⟩
  refine .seq (reports_member (T := Sensed) ?_) ?_
  · rintro i s ms - ⟨a, b, c, rfl⟩
    exact ⟨_, ⟨a, b, c, _, rfl⟩, writeMember_int _ _ _⟩
  refine .seq (reports_member (T := fun ms => ∃ ns, Sensed ns ∧ ms = ns ++ v.members.take 1) ?_) ?_
  · rintro i s ms rfl hms
    exact ⟨_, ⟨ms, hms, rfl⟩, writeMember_nat _ _ _⟩
  refine .seq (reports_member (T := fun ms => ∃ ns, Sensed ns ∧ ms = ns ++ v.members.take 2) ?_) ?_
  · rintro i s ms rfl ⟨ns, hns, rfl⟩
    exact ⟨_, ⟨ns, hns, List.append_assoc _ _ _⟩, writeMember_nat _ _ _⟩
  refine .seq (reports_member (T := fun ms => ∃ ns, Sensed ns ∧ ms = ns ++ v.members.take 3) ?_) ?_
  · rintro i s ms rfl ⟨ns, hns, rfl⟩
    exact ⟨_, ⟨ns, hns, List.append_assoc _ _ _⟩, writeMember_nat _ _ _⟩
  refine .seq (reports_sprintf (R := fun w => ∃ ms, Sensed ms ∧
    w = begun (ms ++ v.members.take 3) ++ Json.writeMember ("flash".toList, unsigned v.flashValue.toInt)) ?_) ?_
  · rintro i s w rfl ⟨ms, ⟨ns, hns, rfl⟩, rfl⟩
    exact ⟨ns, hns, by rw [asUnsigned, writeMember_nat, List.append_nil]; rfl⟩
  refine .seq (reports_set fun s hs ⟨ms, hms, hw⟩ => ⟨hs, ms, hms, ?_⟩) (Leads.done fun _ _ => trivial)
  obtain ⟨a, b, c, d, rfl⟩ := hms
  simp [hw, begun, Json.write, Json.writeMembers, Settings.members]

end

theorem report_statusHandler {xs : List (Choice Env (Firmware.Beside State.report))} {s u : State}
    (h : finish (Firmware.Beside.react _) xs [statusHandler] s = some u) :
    ∃ ms, Sensed ms ∧ u.jsonResponse = Json.write (ms ++ s.settings.members) :=
  let Q := Held s.settings fun w => ∃ ms, Sensed ms ∧ w = Json.write (ms ++ s.settings.members)
  (Spec.Leads.finish (Q := Q) (Firmware.Beside.view_react _) reports_statusHandler ⟨rfl, trivial⟩ h).text

theorem read_members {ms : List Json.Member} (hms : Sensed ms) (w : Settings) :
    Json.read (Json.write (ms ++ w.members)) = some (ms ++ w.members) := by
  obtain ⟨a, b, c, d, rfl⟩ := hms
  refine Json.read_write ?_
  simp only [Settings.members, List.cons_append, List.nil_append, List.forall_mem_cons]
  refine ⟨?_, ?_, ?_, ?_, ?_, ?_, ?_, ?_, List.forall_mem_nil _⟩ <;> exact List.all_eq_true.1 (by decide)

/-- The text shows the bytes as unsigned numbers. -/
theorem shows_write {ms : List Json.Member} (hms : Sensed ms) (w : Settings) (v : Values) :
    Shows (Json.write (ms ++ w.members)) v ↔
      (unsigned w.detectionEnabled.toInt : Int) = v.faceDetect ∧
      (unsigned w.isEnrolling.toInt : Int) = v.faceEnroll ∧
      (unsigned w.recognitionEnabled.toInt : Int) = v.faceRecognize ∧
      (unsigned w.flashValue.toInt : Int) = v.flash := by
  have hread := read_members hms w
  obtain ⟨a, b, c, d, rfl⟩ := hms
  constructor
  · rintro ⟨ms, hr, hshows⟩
    obtain rfl := Option.some.inj (hread.symm.trans hr)
    simpa [Settings.members, List.lookup_cons] using hshows
  · intro h
    exact ⟨_, hread, by simpa [Settings.members, List.lookup_cons] using h⟩

theorem showsFlags_write {ms : List Json.Member} (hms : Sensed ms) (w : Settings) {v : Values}
    (h : (unsigned w.detectionEnabled.toInt : Int) = v.faceDetect ∧
      (unsigned w.isEnrolling.toInt : Int) = v.faceEnroll ∧
      (unsigned w.recognitionEnabled.toInt : Int) = v.faceRecognize) :
    ShowsFlags (Json.write (ms ++ w.members)) v := by
  refine ⟨_, read_members hms w, ?_⟩
  obtain ⟨a, b, c, d, rfl⟩ := hms
  simpa [Settings.members, List.lookup_cons] using h

theorem unsigned_bit {n : Int} (h : n = 0 ∨ n = 1) : (unsigned (Int8.ofInt n).toInt : Int) = n := by
  rcases h with rfl | rfl
  · rfl
  · rfl

theorem unsigned_byte {n : Int} (h : 0 ≤ n ∧ n ≤ 255) :
    (unsigned (Int8.ofInt n).toInt : Int) = n ↔ n ≤ 127 := by
  have hsize : (Int8.size : Int) = 256 := rfl
  rw [Int8.toInt_ofInt, Int.bmod_def, unsigned, hsize]
  split
  · omega
  · omega

/-- The text at the end of a call of `/status`, for the settings that the requests leave. -/
theorem report_established {v : Values} {cs : List Control} (hcs : ∀ c ∈ cs, c.InRange)
    {xs : List (Choice Env (Firmware.Beside State.settings))} {ys : List (Choice Env (Firmware.Beside State.report))}
    {s u w : State} (hs : s.settings = v.settings)
    (hu : finish (Firmware.Beside.react _) xs [requests cs] s = some u)
    (hw : finish (Firmware.Beside.react _) ys [statusHandler] u = some w) :
    ∃ ms, Sensed ms ∧ w.jsonResponse = Json.write (ms ++ (v.established cs).settings.members) := by
  obtain ⟨ms, hms, ht⟩ := report_statusHandler hw
  refine ⟨ms, hms, ?_⟩
  rw [ht, settings_requests hu, hs, Values.settings_established v hcs]

theorem shows_settings {v : Values} (hv : v.InRange) {ms : List Json.Member} (hms : Sensed ms) :
    Shows (Json.write (ms ++ v.settings.members)) v ↔ v.flash ≤ 127 := by
  rw [shows_write hms, ← unsigned_byte hv.flash]
  simp only [Values.settings, unsigned_bit hv.faceDetect, unsigned_bit hv.faceEnroll,
    unsigned_bit hv.faceRecognize, true_and]

theorem showsFlags_settings {v : Values} (hv : v.InRange) {ms : List Json.Member} (hms : Sensed ms) :
    ShowsFlags (Json.write (ms ++ v.settings.members)) v := by
  refine showsFlags_write hms _ ⟨?_, ?_, ?_⟩
  · exact unsigned_bit hv.faceDetect
  · exact unsigned_bit hv.faceEnroll
  · exact unsigned_bit hv.faceRecognize

/-- `/status` answers in well-formed JSON with the three flags as set, and with the flash value as set exactly when
the last one is at most 127. -/
theorem status_reports (v : Values) (cs : List Control) (hv : v.InRange) (hcs : ∀ c ∈ cs, c.InRange)
    (xs : List (Choice Env (Firmware.Beside State.settings))) (ys : List (Choice Env (Firmware.Beside State.report)))
    (s u w : State) (hs : s.settings = v.settings)
    (hu : finish (Firmware.Beside.react _) xs [requests cs] s = some u)
    (hw : finish (Firmware.Beside.react _) ys [statusHandler] u = some w) :
    (Shows w.jsonResponse (v.established cs) ↔ lastFlash v.flash cs ≤ 127) ∧
      ShowsFlags w.jsonResponse (v.established cs) := by
  obtain ⟨ms, hms, hreport⟩ := report_established hcs hs hu hw
  have hr := hv.established hcs
  rw [hreport, shows_settings hr hms, Values.flash_established]
  exact ⟨Iff.rfl, showsFlags_settings hr hms⟩

/-- Statements with nothing beside them. -/
def undisturbed {V : Type} (view : State → V) (n : Nat) : List (Choice Env (Firmware.Beside view)) :=
  List.replicate n (.run {})

theorem inRange_powerOn : ({} : Values).InRange := ⟨.inr rfl, .inl rfl, .inr rfl, by decide⟩

theorem inRange_flash {val : Int} (h : 0 ≤ val ∧ val ≤ 255) : ∀ c ∈ [Control.flash val], c.InRange := by
  simpa [Control.InRange] using h

theorem status_reports_hundred : ∃ u w,
    finish (Firmware.Beside.react _) (undisturbed State.settings 3) [requests [.flash 100]]
        (powerOn fun _ => {}) = some u ∧
      finish (Firmware.Beside.react _) (undisturbed State.report 21) [statusHandler] u = some w ∧
      (Shows w.jsonResponse { flash := 100 } ↔ (100 : Int) ≤ 127) ∧ ShowsFlags w.jsonResponse { flash := 100 } :=
  ⟨_, _, rfl, rfl, status_reports {} [.flash 100] inRange_powerOn (inRange_flash (by decide))
    (undisturbed _ 3) (undisturbed _ 21) _ _ _ rfl rfl rfl⟩

/-- After a request for a flash value of 128. -/
def flashed : State := { powerOn (fun _ => {}) with flashValue := -128 }

/-- It is shown as 4294967168. -/
theorem status_flash : ¬ ∀ (v : Values) (cs : List Control), v.InRange → (∀ c ∈ cs, c.InRange) →
    ∀ (xs : List (Choice Env (Firmware.Beside State.settings))) (ys : List (Choice Env (Firmware.Beside State.report)))
      (s u w : State), s.settings = v.settings → finish (Firmware.Beside.react _) xs [requests cs] s = some u →
      finish (Firmware.Beside.react _) ys [statusHandler] u = some w → Shows w.jsonResponse (v.established cs) := by
  intro h
  have hrange : ∀ c ∈ [Control.flash 128], c.InRange := inRange_flash (by decide)
  have hrequest : finish (Firmware.Beside.react _) (undisturbed State.settings 3) [requests [.flash 128]]
      (powerOn fun _ => {}) = some flashed := rfl
  obtain ⟨w, hstatus⟩ : ∃ w,
      finish (Firmware.Beside.react _) (undisturbed State.report 21) [statusHandler] flashed = some w := ⟨_, rfl⟩
  have hshows := h {} [.flash 128] inRange_powerOn hrange _ _ _ _ _ rfl hrequest hstatus
  obtain ⟨ms, hms, hreport⟩ := report_established (v := {}) hrange rfl hrequest hstatus
  rw [hreport] at hshows
  exact absurd ((shows_settings (inRange_powerOn.established hrange) hms).1 hshows) (by decide)

end Cam

import TruckLock.CenterTest

/-!
# Invariants of the breath test over whole runs

An assertion for each stage of a test, kept by presses and by the moves that
the sketch makes on the test in that stage, holds throughout every run.
-/
namespace Center

open Firmware Spec

/-- `rest` is outside `readIsAlcohol`, `asked` before its comparison, `sampling` and `seen` are the
stages of a sample, and `closing` is the end of a test. -/
inductive Stage where
  | setup
  | rest
  | asked
  | sampling
  | seen
  | closing

namespace Test

def initial : Test where
  alcoholFlash := false
  camTXPin := true
  camLevel := true
  isMatchFaceID := false
  t1 := 0
  now := 0
  hist := [.boot]

def saying (e : Event) : Move Env Test := .to fun v => v.say e

/-- The clock is read at the start of `readIsAlcohol`. -/
def calling : Move Env Test :=
  fun _ v w => ∃ clock, w = { v with now := clock % 2 ^ 32 }.say (.called clock)

/-- The camera's answer is read. -/
def looking : Move Env Test :=
  fun _ v w => ∃ level, w = { v with camLevel := level }.say (.camera level)

/-- What happens beside the program, as far as presses that satisfy `ok` go. -/
def Beside (ok : Test → Option Nat → Nat → Prop) (v w : Test) : Prop :=
  w = v ∨ ∃ last stop, ok v last stop ∧ w = v.press last stop

/-- After a reset. -/
def boot (v : Test) : Test := { initial with hist := .boot :: v.hist }

end Test

/-- The moves of the whole sketch keep the assertions `I`. -/
structure Watched (S : Spec Env Test) (ok : Test → Option Nat → Nat → Prop)
    (I : Stage → Test → Prop) : Prop where
  steady : ∀ g, S.Steady (Test.Beside ok) (I g)
  top : ∀ g v, I g v → S.top v
  initial : I .setup .initial
  boot : ∀ v, S.inv v → I .setup v.boot
  park : ∀ v, I .setup v → S.Chain [.to fun v => { v with camTXPin := true }] (I .setup) v
  calm : ∀ v, I .setup v → S.Chain [.to fun v => { v with alcoholFlash := false }] (I .setup) v
  started : ∀ v, I .setup v → S.Chain [Test.saying .started] (I .rest) v
  call : ∀ v, I .rest v → S.Chain [Test.calling] (I .asked) v
  sample : ∀ v, I .asked v → S.Chain [Test.saying .sampling] (I .sampling) v
  analog : ∀ v n, I .sampling v → S.Chain [Test.saying (.analog n)] (I .sampling) v
  look : ∀ v, I .sampling v → S.Chain [Test.looking] (I .seen) v
  matched : ∀ v, I .seen v → v.camLevel = false →
    S.Chain [.to fun v => { v with isMatchFaceID := true }] (I .sampling) v
  unmatched : ∀ v, I .seen v → v.camLevel = true → I .sampling v
  closes : ∀ v, I .asked v → 7000 ≤ elapsed v.now v.t1 → I .closing v
  dark : ∀ v, I .closing v → S.Chain [.to fun v => { v with alcoholFlash := false }] (I .closing) v
  drunk : ∀ v x, I .closing v → v.isMatchFaceID = true →
    S.Chain [Test.saying (.alcohol x)] (I .closing) v
  sober : ∀ v x, I .closing v → v.isMatchFaceID = true →
    S.Chain [Test.saying (.notAlcohol x)] (I .closing) v
  weak : ∀ v x, I .closing v → S.Chain [Test.saying (.blowHarder x)] (I .closing) v
  unknown : ∀ v, I .closing v → S.Chain [Test.saying .unknownDriver] (I .closing) v
  release : ∀ v, I .closing v → S.Chain [.to fun v => { v with camTXPin := true }] (I .closing) v
  forget : ∀ v, I .closing v →
    S.Chain [.to fun v => { v with isMatchFaceID := false }] (I .closing) v
  returned : ∀ v, I .sampling v ∨ I .closing v → S.Chain [Test.saying .returned] (I .rest) v

namespace Watched

variable {S : Spec Env Test} {ok : Test → Option Nat → Nat → Prop} {I : Stage → Test → Prop}
  {A B : Test → Prop} (P : Platform)

/-- Code that has nothing to do with a test keeps every assertion. -/
theorem aside (hA : S.Steady (Test.Beside ok) A) (ht : ∀ v, A v → S.top v) {c : Sketch} (hc : Aside c) :
    S.Amid (Test.Beside ok) State.test A c A := by
  have hstable : Stable (S.amid (Test.Beside ok) State.test) fun s => A s.test := hA.stable
  refine Triple.every hstable (fun s hs => ht s.test hs) (fun i f k s _ hE hs => ?_) hc
  have he : (f i s).test = s.test := hE.1
  show S.good s.test (f i s).test ∧ A (f i s).test
  rw [he]
  exact ⟨S.good_refl _, hs⟩

theorem aside_stage (h : Watched S ok I) (g : Stage) {c : Sketch} (hc : Aside c) :
    S.Amid (Test.Beside ok) State.test (I g) c (I g) :=
  aside (h.steady g) (h.top g) hc

/-- One statement of a stage. -/
theorem set (h : Watched S ok I) {g g' : Stage} {f : State → State} {m : Move Env Test}
    (hf : ∀ i s, m i s.test (f s).test) (hm : ∀ v, I g v → S.Chain [m] (I g') v) :
    S.Amid (Test.Beside ok) State.test (I g) (.set f) (I g') :=
  Amid.move (h.steady g) hf hm

/-- An assertion with a fact that a press leaves alone. -/
theorem steady_and (h : Watched S ok I) (g : Stage) {p : Test → Prop}
    (hp : ∀ v last stop, p v → p (v.press last stop)) :
    S.Steady (Test.Beside ok) fun v => I g v ∧ p v where
  inv v hv := (h.steady g).inv v hv.1
  rel v w hv hw := by
    refine ⟨(h.steady g).rel v w hv.1 hw, ?_⟩
    rcases hw with rfl | ⟨last, stop, -, rfl⟩
    · exact hv.2
    · exact hp v last stop hv.2

theorem sampling (h : Watched S ok I) :
    S.Amid (Test.Beside ok) State.test (I .sampling) (Center.sample P) (I .sampling) := by
  have hidle : ∀ {c : Sketch}, Aside c → S.Amid (Test.Beside ok) State.test (I .sampling) c (I .sampling) :=
    fun hc => h.aside_stage .sampling hc
  have hfold : ∀ current : Int, Aside (.block [
      .when (fun _ s => s.MAX < current) (.set fun s => { s with MAX := current }),
      .when (fun _ s => current < s.MIN) (.set fun s => { s with MIN := current })]) := fun _ =>
    ⟨⟨fun _ _ => ⟨rfl, .inl rfl⟩, trivial⟩, ⟨fun _ _ => ⟨rfl, .inl rfl⟩, trivial⟩, trivial⟩
  refine .seq (hidle fun _ _ => ⟨rfl, .inl rfl⟩) (.seq (R := fun s => I .sampling s.test) ?_ (.seq
    (Amid.get (h.steady _) fun current => hidle (hfold current)) (.seq (R := fun s => I .seen s.test) ?_
    (.seq ?_ (hidle ⟨fun _ _ => ⟨rfl, .inl rfl⟩, trivial⟩)))))
  · exact Amid.step (h.steady _) fun i s hs hok => (h.analog _ i.adc hs).2 i _ (test_emit _ _ rfl) hok
  · exact Amid.move (h.steady _) (fun i s => ⟨i.camRX, test_emit _ _ rfl⟩) h.look
  · refine Amid.when (T := fun v => I .seen v ∧ v.camLevel = false) (h.steady _)
      (fun i s hs hc => ⟨hs, ?_⟩) (fun i s hs hc => h.unmatched _ hs ?_) (h.steady _) ?_
    · show s.camLevel = false
      simpa using hc
    · show s.camLevel = true
      simpa using hc
    · exact Amid.move (h.steady_and .seen fun _ _ _ hv => hv) (m := .to fun v => { v with isMatchFaceID := true })
        (fun _ _ => rfl) fun v hv => h.matched v hv.1 hv.2

theorem judge (h : Watched S ok I) (downLimit upLimit threshold : Int) :
    S.Amid (Test.Beside ok) State.test (fun v => I .closing v ∧ v.isMatchFaceID = true)
      (Center.judge downLimit upLimit threshold) (I .closing) := by
  have hst : S.Steady (Test.Beside ok) fun v => I .closing v ∧ v.isMatchFaceID = true :=
    h.steady_and .closing fun _ _ _ hv => hv
  refine Amid.get hst fun MAX => Amid.choose ?_ (Amid.get hst fun MIN => Amid.choose (.seq ?_
    (h.aside_stage .closing (remote_delay _).aside)) ?_)
  · exact Amid.step hst fun i s hs hok => (h.drunk _ _ hs.1 hs.2).2 i _ (test_emit _ _ rfl) hok
  · exact Amid.step hst fun i s hs hok => (h.weak _ _ hs.1).2 i _ (test_emit _ _ rfl) hok
  · exact Amid.step hst fun i s hs hok => (h.sober _ _ hs.1 hs.2).2 i _ (test_emit _ _ rfl) hok

theorem close (h : Watched S ok I) (downLimit upLimit threshold : Int) :
    S.Amid (Test.Beside ok) State.test (I .closing) (Center.close P downLimit upLimit threshold)
      (I .closing) := by
  have hst := h.steady .closing
  refine .seq (h.set (fun _ _ => rfl) h.dark) (.seq (Amid.get hst fun MAX => Amid.get hst fun MIN =>
    h.aside_stage .closing ⟨(remote_delay _).aside, (remote_virtualWrite P 35 _).aside, (remote_delay _).aside,
      trivial⟩)
    (.seq ?_ (.seq (h.set (fun _ _ => rfl) h.release) (.seq (h.set (fun _ _ => rfl) h.forget)
    (Amid.done hst)))))
  refine Amid.ite (F := I .closing) hst (fun _ _ hs hc => ⟨hs, hc⟩) (fun _ _ hs _ => hs) (h.judge _ _ _)
    (.seq (h.set (fun _ s => test_emit s _ rfl) h.unknown) (h.aside_stage .closing (remote_delay _).aside))

theorem readIsAlcohol (h : Watched S ok I) (downLimit upLimit threshold : Int) :
    S.Amid (Test.Beside ok) State.test (I .rest)
      (Center.readIsAlcohol P downLimit upLimit threshold) (I .rest) := by
  have hor : S.Steady (Test.Beside ok) fun v => I .sampling v ∨ I .closing v := by
    refine ⟨fun v hv => hv.elim ((h.steady _).inv v) ((h.steady _).inv v), fun v w hv hw => ?_⟩
    exact hv.imp (fun hv => (h.steady _).rel v w hv hw) fun hv => (h.steady _).rel v w hv hw
  refine .seq (h.set (m := Test.calling) (fun _ s => ⟨s.clock, test_emit _ _ rfl⟩) h.call)
    (.seq (R := fun s => I .sampling s.test ∨ I .closing s.test) ?_ (.seq (R := fun s => I .rest s.test)
    ?_ (Amid.done (h.steady _))))
  · refine Amid.ite (T := I .asked) (F := I .closing) (B := fun v => I .sampling v ∨ I .closing v)
      (h.steady _) (fun _ _ hs _ => hs) (fun i s hs hc => ?_) ?_ ?_
    · exact h.closes _ hs (not_lt.1 (of_decide_eq_false hc))
    · refine .seq (h.set (fun _ s => test_emit s _ rfl) h.sample)
        (Triple.post (Q := fun s => I .sampling s.test) ?_ fun _ hs => Or.inl hs)
      exact Amid.get (h.steady _) fun now => Amid.choose (h.sampling P) (Amid.done (h.steady _))
    · exact (h.close P _ _ _).post fun _ hs => Or.inr hs
  · exact Amid.move hor (fun _ s => test_emit s _ rfl) h.returned

theorem loop (h : Watched S ok I) :
    S.Amid (Test.Beside ok) State.test (I .rest) (Center.loop P) (I .rest) :=
  amid_loop P (h.steady _) (fun hc => h.aside_stage .rest hc.aside) (h.readIsAlcohol P)

theorem setup (h : Watched S ok I) :
    S.Amid (Test.Beside ok) State.test (I .setup) (Center.setup P) (I .rest) := by
  have hidle : ∀ {c : Sketch}, Aside c → S.Amid (Test.Beside ok) State.test (I .setup) c (I .setup) :=
    fun hc => h.aside_stage .setup hc
  have hset : ∀ {f : State → State}, (∀ s, Untested s (f s)) →
      S.Amid (Test.Beside ok) State.test (I .setup) (.set f) (I .setup) := fun hf => hidle fun _ s => hf s
  refine .seq (hset fun _ => ⟨rfl, .inl rfl⟩) (.seq (hset fun _ => ⟨rfl, .inl rfl⟩) (.seq
    (h.set (fun _ _ => rfl) h.park) (.seq (hset fun _ => ⟨rfl, .inl rfl⟩) (.seq
    (hset fun _ => ⟨rfl, .inl rfl⟩) (.seq (hset fun _ => ⟨rfl, .inl rfl⟩) ?_)))))
  refine .seq (hidle ⟨trivial, trivial⟩) (.seq (hidle (remote_delay _).aside) (.seq
    (hset fun s => aside_emit _ rfl rfl rfl) (.seq (hidle (remote_delay _).aside)
    (.seq (hidle (remote_testWiFi P 20).aside) (.seq (hidle (remote_delay _).aside)
    (.seq (hset fun _ => ⟨rfl, .inl rfl⟩) ?_))))))
  refine .seq (hset fun _ => ⟨rfl, .inl rfl⟩) (.seq (hidle (remote_delay _).aside) (.seq
    (hidle (remote_send P (fun _ => rfl)).aside) (.seq (hidle (remote_delay _).aside) (.seq
    (hidle (remote_send P (fun _ => rfl)).aside) (.seq (hidle (remote_delay _).aside) (.seq
    (hset fun _ => ⟨rfl, .inl rfl⟩) ?_))))))
  exact .seq (h.set (fun _ _ => rfl) h.calm) (.seq (h.set (fun _ s => test_emit s _ rfl) h.started)
    (Amid.done (h.steady _)))

theorem sketch (h : Watched S ok I) :
    Triple (S.amid (Test.Beside ok) State.test) (fun s => I .setup s.test) (device P).boot
      fun _ => False :=
  .seq (h.setup P) (.forever (fun s hs => h.top .rest s.test hs) (h.loop P))

end Watched

theorem test_powerOn (flash : Nat → UInt8) : (powerOn flash).test = .initial := rfl

theorem test_restart (s : State) : (restart s).test = s.test.boot := rfl

/-- What is assumed of a step: of the inputs of a statement, and of a press. -/
def Permitted (S : Spec Env Test) (ok : Test → Option Nat → Nat → Prop) (x : Choice Env Outside)
    (c d : Config State Env) : Prop :=
  match x with
  | .run i => S.ok i c.state.test d.state.test
  | .outside _ => ∀ last stop, d.state.log = .pressed last stop :: c.state.log → ok c.state.test last stop
  | .reset => True

/-- What one step is to the test. -/
def Test.Moved (S : Spec Env Test) (v w : Test) : Prop :=
  S.good v w ∨ (∃ last stop, w = v.press last stop) ∨ w = v.boot

namespace Event

/-- The end of a test that raises a request. -/
def judges : Event → Bool
  | .alcohol _ | .notAlcohol _ => true
  | _ => false

theorem onTest_of_judges {e : Event} (h : e.judges = true) : e.onTest = true := by
  cases e <;> first | rfl | simp [judges] at h

end Event

/-- A verdict comes from the program. -/
theorem Test.Moved.judged {S : Spec Env Test} {v w : Test} (h : Moved S v w) {e : Event}
    (he : w.hist = e :: v.hist) (hj : e.judges = true) : S.good v w := by
  rcases h with h | ⟨last, stop, rfl⟩ | rfl
  · exact h
  · obtain rfl := (List.cons.inj he).1
    simp [Event.judges] at hj
  · obtain rfl := (List.cons.inj he).1
    simp [Event.judges] at hj

namespace Watched

variable {S : Spec Env Test} {ok : Test → Option Nat → Nat → Prop} {I : Stage → Test → Prop}
  (P : Platform)

/-- Throughout a run of permitted steps the assertions hold and each step is a move of the spec. -/
theorem along (h : Watched S ok I) (flash : Nat → UInt8) (xs : Run)
    (hx : (device P).Along (Permitted S ok) xs ((device P).start (powerOn flash))) :
    (device P).Along (fun _ c d => S.inv c.state.test ∧ Test.Moved S c.state.test d.state.test ∧
      S.inv d.state.test) xs ((device P).start (powerOn flash)) := by
  have hr : ∀ s, (S.amid (Test.Beside ok) State.test).inv s →
      I .setup ((device P).restart s).test := fun s hs => h.boot s.test hs
  have h0 : Machine.Always (S.amid (Test.Beside ok) State.test) ((device P).start (powerOn flash)) :=
    Machine.always_start (h.sketch P) h.initial
  refine (Machine.along_always (h.sketch P) hr xs _ h0 (hx.imp ?_)).imp fun x c hc =>
    ⟨hc.1.inv, ?_, hc.2.2.inv⟩
  · intro x c hc
    cases x with
    | run i =>
      intro l t hst
      simpa [Permitted, Machine.step, hst] using hc
    | outside r =>
      rcases test_react r c.state with hr | ⟨last, stop, hr, hl⟩
      · exact .inl hr
      · exact .inr ⟨last, stop, hc last stop hl, hr⟩
    | reset => trivial
  · rcases hc.2.1 with hd | ⟨r, -, -, hd | ⟨last, stop, -, hd⟩⟩ | ⟨i, -, -, hd⟩
    · rw [hd]
      exact .inr (.inr (test_restart c.state))
    · rw [hd]
      exact .inl (S.good_refl _)
    · exact .inr (.inl ⟨last, stop, hd⟩)
    · exact .inl hd

end Watched

end Center

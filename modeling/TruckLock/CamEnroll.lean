import TruckLock.Cam
import TruckLock.Views

/-!
# Enrolment from the SD card

Which files give a sample, and to which of the two persons the library counts
it: the first five samples make the first ID, the next five the second one.
-/
namespace Cam

open Firmware

/-- The file of a sample. -/
def Event.file : Event → Option Nat
  | .sample _ file _ => file
  | _ => none

/-- The view of an enrolment; the samples stand with the latest one first. -/
structure Enrolling where
  card : Nat → Image
  mounted : Bool
  ok : Bool
  samples : List Nat

def State.enrolling (t : Task) (s : State) : Enrolling where
  card := s.card
  mounted := s.mounted
  ok := s.ok t
  samples := s.log.filterMap Event.file

theorem enrolling_react (t : Task) (r : Outside) (s : State) :
    (react r s).enrolling t = s.enrolling t := by
  obtain ⟨level⟩ := r
  simp only [react]
  by_cases h : s.camRXPin = true ∧ level = false
  · simp only [State.enrolling, h, and_self, ↓reduceIte]
    rfl
  · simp [State.enrolling, h]

namespace Image

/-- A first face is found in the image and aligned. -/
def usable (m : Image) : Bool := m.present && m.found && m.aligned

/-- There is memory for the image and for its face. -/
def fits (m : Image) : Bool := m.imageMatrix && m.alignedFace

end Image

/-- The files of the list that give a sample. -/
def sampled (card : Nat → Image) : Bool → List Nat → List Nat
  | _, [] => []
  | mounted, file :: fs =>
    let mounted := mounted && (card file).present
    if mounted && (card file).usable && (card file).fits then file :: sampled card mounted fs
    else sampled card mounted fs

structure At (card : Nat → Image) (mounted : Bool) (samples : List Nat) (v : Enrolling) : Prop where
  card : v.card = card
  mounted : v.mounted = mounted
  samples : v.samples = samples

/-- The same after an allocation. -/
structure After (card : Nat → Image) (mounted : Bool) (samples : List Nat) (ok : Bool)
    (v : Enrolling) : Prop extends At card mounted samples v where
  ok : v.ok = ok

def Gave (samples : List Nat) (v : Enrolling) : Prop := v.samples = samples

/-- A piece of code as the enrolment sees it. -/
abbrev Does (t : Task) (Q A : Enrolling → Prop) (c : Sketch) (B : Enrolling → Prop) : Prop :=
  (Spec.call Q).Leads (State.enrolling t) A c B

section

variable {card : Nat → Image} {mounted : Bool} {samples : List Nat} {Q : Enrolling → Prop} (t : Task)

theorem at_free (b : Buffer) : Does t Q (At card mounted samples)
    (free t b) (At card mounted samples) :=
  Spec.Leads.step (fun _ _ => trivial) fun _ _ hs _ => ⟨trivial, ⟨hs.card, hs.mounted, hs.samples⟩⟩

theorem at_alloc (b : Buffer) {ok : Env → State → Bool} {o : Bool}
    (ho : ∀ i s, At card mounted samples (s.enrolling t) → ok i s = o) :
    Does t Q (At card mounted samples) (allocWhen t b ok)
      (After card mounted samples o) :=
  Spec.Leads.step (fun _ _ => trivial) fun i s hs _ =>
    ⟨trivial, ⟨hs.card, hs.mounted, hs.samples⟩, by simp [State.enrolling, State.emit, put, ho i s hs]⟩

/-- The first face of a file whose image fits in the memory. -/
theorem at_face (file : Nat) :
    Does t Q (At card mounted samples)
      (.when (fun _ s => (s.card file).found) <|
        .seq (allocWhen t .alignedFace fun _ s => (s.card file).alignedFace) <|
        .when (fun _ s => (s.card file).aligned) <| .seq
          (.when (fun _ s => s.ok t) <|
            .act fun i s => { s with leftSampleFace := put s.leftSampleFace t i.leftSampleFace }.emit
              (.sample t (some file) i.leftSampleFace))
          (free t .alignedFace))
      (At card mounted (if (card file).found && (card file).aligned && (card file).alignedFace
        then file :: samples else samples)) := by
  have hdone : ∀ l, Does t Q (At card mounted l) .skip
      (At card mounted l) := fun l => Spec.Leads.done fun _ _ => trivial
  have hskip : ∀ o, Does t Q (After card mounted samples o) .skip
      (At card mounted samples) :=
    fun _ => Spec.Leads.skip (fun _ _ => trivial) fun _ hs => hs.toAt
  refine Spec.Leads.known (b := (card file).found) (fun _ _ => trivial) (fun _ s hs => ?_) ?_
  · rw [show s.card = card from hs.card]
  cases hfound : (card file).found with
  | false => simpa using hdone samples
  | true =>
    refine .seq (at_alloc t .alignedFace (o := (card file).alignedFace) fun _ s hs => ?_) ?_
    · rw [show s.card = card from hs.card]
    refine Spec.Leads.known (b := (card file).aligned) (fun _ _ => trivial) (fun _ s hs => ?_) ?_
    · rw [show s.card = card from hs.card]
    cases haligned : (card file).aligned with
    | false => simpa using hskip _
    | true =>
      refine .seq ?_ (at_free t .alignedFace)
      refine Spec.Leads.known (b := (card file).alignedFace) (fun _ _ => trivial) (fun _ _ hs => hs.ok) ?_
      cases hfits : (card file).alignedFace with
      | false => simpa using hskip _
      | true =>
        refine Spec.Leads.step (fun _ _ => trivial) fun i s hs _ => ⟨trivial, hs.card, hs.mounted, ?_⟩
        exact congrArg (List.cons file) hs.samples

/-- One file. -/
theorem at_enrollFile (file : Nat) :
    Does t Q (At card mounted samples) (enrollFile t file)
      (At card (mounted && (card file).present)
        ((sampled card mounted [file]).reverse ++ samples)) := by
  refine Spec.Leads.known (b := mounted && (card file).present) (fun _ _ => trivial) (fun _ s hs => ?_) ?_
  · rw [show s.mounted = mounted from hs.mounted, show s.card = card from hs.card]
  cases hopen : mounted && (card file).present with
  | false =>
    have hs : sampled card mounted [file] = [] := by simp [sampled, hopen]
    rw [hs]
    exact Spec.Leads.step (fun _ _ => trivial) fun _ _ hs _ => ⟨trivial, hs.card, rfl, hs.samples⟩
  | true =>
    obtain ⟨rfl, hpresent⟩ := Bool.and_eq_true_iff.1 hopen
    have hs : (sampled card true [file]).reverse ++ samples =
        if (card file).imageMatrix && ((card file).found && (card file).aligned &&
          (card file).alignedFace) then file :: samples else samples := by
      simp only [sampled, hpresent, Image.usable, Image.fits, Bool.true_and]
      cases (card file).imageMatrix <;> cases (card file).found <;> cases (card file).aligned <;>
        cases (card file).alignedFace <;> rfl
    rw [hs]
    refine .seq (at_alloc t .imageMatrix (o := (card file).imageMatrix) fun _ s hs => ?_) ?_
    · rw [show s.card = card from hs.card]
    refine Spec.Leads.known (b := (card file).imageMatrix) (fun _ _ => trivial) (fun _ _ hs => hs.ok) ?_
    cases hfits : (card file).imageMatrix with
    | false => exact Spec.Leads.skip (fun _ _ => trivial) fun _ hs => by simpa using hs.toAt
    | true =>
      refine Triple.pre ?_ (Spec.stable fun _ _ => trivial) fun _ hs => hs.toAt
      exact .seq (at_face t file) (at_free t .imageMatrix)

theorem at_files (fs : List Nat) :
    Does t Q (At card mounted samples) (.block (fs.map (enrollFile t)))
      (Gave ((sampled card mounted fs).reverse ++ samples)) := by
  induction fs generalizing mounted samples with
  | nil => exact Spec.Leads.skip (fun _ _ => trivial) fun _ hs => by simpa [sampled, Gave] using hs.samples
  | cons file fs ih =>
    refine (Triple.seq (at_enrollFile t file) ih).post fun s hs => ?_
    have hsplit : sampled card mounted (file :: fs) =
        sampled card mounted [file] ++ sampled card (mounted && (card file).present) fs := by
      simp only [sampled]
      split
      · rfl
      · rfl
    show Gave _ _
    rw [hsplit]
    simpa using hs

end

/-- The whole enrolment. -/
theorem samples_encrollImageSD (t : Task) {xs : List (Choice Env Outside)} {s s' : State}
    (h : finish react xs [encrollImageSD t] s = some s') :
    (s'.enrolling t).samples =
      (sampled s.card true files).reverse ++ (s.enrolling t).samples := by
  have hc : Does t (Gave ((sampled s.card true files).reverse ++ (s.enrolling t).samples))
      (At s.card s.mounted (s.enrolling t).samples) (encrollImageSD t)
      (Gave ((sampled s.card true files).reverse ++ (s.enrolling t).samples)) := by
    refine .seq (R := fun u => At s.card true (s.enrolling t).samples (u.enrolling t)) ?_
      (.seq (at_files t files) (.seq ?_ (Spec.Leads.done fun _ _ => trivial)))
    · exact Spec.Leads.choose
        (Spec.Leads.step (fun _ _ => trivial) fun _ _ hu _ => ⟨trivial, hu.card, rfl, hu.samples⟩)
        (.reset (Spec.stable fun _ _ => trivial))
    · exact Spec.Leads.step (fun _ _ => trivial) fun _ _ hu _ => ⟨trivial, hu⟩
  exact Spec.Leads.finish (enrolling_react t) hc ⟨rfl, rfl, rfl⟩ h

theorem sampled_sublist (card : Nat → Image) (mounted : Bool) (fs : List Nat) :
    (sampled card mounted fs).Sublist (fs.filter fun j => (card j).usable) := by
  induction fs generalizing mounted with
  | nil => exact .slnil
  | cons file fs ih =>
    simp only [sampled, List.filter_cons]
    cases hu : (card file).usable with
    | false => simpa using ih _
    | true =>
      split
      · exact (ih _).cons_cons file
      · exact (ih _).cons file

/-- The files of an ordered list that the enrolment misses: those after a missing file, and those
for which there is no memory. -/
theorem sampled_eq_iff (card : Nat → Image) (mounted : Bool) (fs : List Nat)
    (hfs : fs.Pairwise (· < ·)) :
    sampled card mounted fs = (fs.filter fun j => (card j).usable) ↔
      ∀ j ∈ fs, (card j).usable = true →
        mounted = true ∧ (∀ i ∈ fs, i < j → (card i).present = true) ∧ (card j).fits = true := by
  induction fs generalizing mounted with
  | nil => simp [sampled]
  | cons file fs ih =>
    obtain ⟨hlt, hfs⟩ := List.pairwise_cons.1 hfs
    have hrest : (∀ j ∈ fs, (card j).usable = true → mounted = true ∧
          (∀ i ∈ file :: fs, i < j → (card i).present = true) ∧ (card j).fits = true) ↔
        ∀ j ∈ fs, (card j).usable = true → (mounted && (card file).present) = true ∧
          (∀ i ∈ fs, i < j → (card i).present = true) ∧ (card j).fits = true := by
      refine forall₃_congr fun j hj _ => ?_
      simp only [List.forall_mem_cons, Bool.and_eq_true, hlt j hj, true_implies]
      tauto
    have hfirst : (∀ i ∈ file :: fs, i < file → (card i).present = true) := by
      intro i hi hif
      rcases List.mem_cons.1 hi with rfl | hi
      · omega
      · have := hlt i hi
        omega
    rw [List.forall_mem_cons, hrest, ← ih _ hfs]
    simp only [sampled, List.filter_cons]
    cases hu : (card file).usable with
    | false => simp
    | true =>
      have hp : (card file).present = true := by
        simp only [Image.usable, Bool.and_eq_true] at hu
        exact hu.1.1
      cases hm : mounted && (card file).fits with
      | true =>
        obtain ⟨rfl, hf⟩ := Bool.and_eq_true_iff.1 hm
        simp only [hp, hf, Bool.and_true, ↓reduceIte, List.cons.injEq, true_and, true_implies,
          and_true]
        exact ⟨fun h => ⟨hfirst, h⟩, fun h => h.2⟩
      | false =>
        have hnot : ¬ (mounted = true ∧ (card file).fits = true) := by simpa using hm
        have hlen := (sampled_sublist card mounted fs).length_le
        simp only [hp, Bool.and_true, hm, Bool.false_eq_true, ↓reduceIte, true_implies]
        constructor
        · intro h
          rw [h, List.length_cons] at hlen
          omega
        · rintro ⟨⟨h1, -, h3⟩, -⟩
          exact absurd ⟨h1, h3⟩ hnot

/-- The samples of the first ID are of the first person, those of the second ID of the second one. -/
structure Grouped (samples : List Nat) : Prop where
  first : ∀ j ∈ samples.take 5, j ≤ 5
  second : ∀ j ∈ samples.drop 5, 6 ≤ j

theorem grouped_append {a b : List Nat} (ha : ∀ j ∈ a, j ≤ 5) (hb : ∀ j ∈ b, 6 ≤ j)
    (hlen : a.length ≤ 5) (hb5 : b.length ≤ 5) : Grouped (a ++ b) ↔ b = [] ∨ a.length = 5 := by
  constructor
  · intro h
    by_contra hn
    obtain ⟨hne, hlt⟩ := not_or.1 hn
    cases b with
    | nil => exact hne rfl
    | cons j b =>
      have hj : j ∈ (a ++ j :: b).take 5 := by
        rw [List.take_append, show 5 - a.length = (4 - a.length) + 1 by omega, List.take_succ_cons]
        simp
      have h1 := h.first j hj
      have h2 := hb j (by simp)
      omega
  · rintro (rfl | hlen)
    · rw [List.append_nil]
      refine ⟨fun j hj => ha j (List.mem_of_mem_take hj), ?_⟩
      rw [List.drop_eq_nil_of_le hlen]
      simp
    · refine ⟨?_, ?_⟩
      · rw [List.take_left' hlen]
        exact ha
      · rw [List.drop_left' hlen]
        exact hb

/-- What a card has to be like: a usable image fits in the memory and no file before it is missing,
and a usable image of the second person needs all five of the first one. -/
structure Orderly (card : Nat → Image) : Prop where
  reached : ∀ j ∈ files, (card j).usable = true →
    (∀ i ∈ files, i < j → (card i).present = true) ∧ (card j).fits = true
  complete : (∃ j ∈ files, 6 ≤ j ∧ (card j).usable = true) →
    ∀ i ∈ files, i ≤ 5 → (card i).usable = true

/-- The enrolment gives a sample for each usable image, and mixes no persons. -/
structure Enrolled (s t : State) : Prop where
  samples : t.log.filterMap Event.file =
    (files.filter fun j => (s.card j).usable).reverse ++ s.log.filterMap Event.file
  grouped : Grouped (files.filter fun j => (s.card j).usable)

theorem grouped_iff (card : Nat → Image) :
    Grouped (files.filter fun j => (card j).usable) ↔
      ((∃ j ∈ files, 6 ≤ j ∧ (card j).usable = true) →
        ∀ i ∈ files, i ≤ 5 → (card i).usable = true) := by
  have hsplit : (files.filter fun j => (card j).usable) =
      ([1, 2, 3, 4, 5].filter fun j => (card j).usable) ++
        [6, 7, 8, 9, 10].filter fun j => (card j).usable := by
    rw [← List.filter_append]
    rfl
  rw [hsplit, grouped_append]
  · have h5 : ([1, 2, 3, 4, 5].filter fun j => (card j).usable).length = 5 ↔
        ∀ i ∈ [1, 2, 3, 4, 5], (card i).usable = true :=
      List.length_filter_eq_length_iff
    rw [h5, List.filter_eq_nil_iff]
    simp [files]
    grind
  · intro j hj
    have := List.mem_of_mem_filter hj
    simp at this
    omega
  · intro j hj
    have := List.mem_of_mem_filter hj
    simp at this
    omega
  · exact List.length_filter_le _ _
  · exact List.length_filter_le _ _

/-- The enrolment is right for exactly the orderly cards. -/
theorem enrolled_iff (t : Task) (xs : List (Choice Env Outside)) (s s' : State)
    (h : finish react xs [encrollImageSD t] s = some s') : Enrolled s s' ↔ Orderly s.card := by
  have hs : s'.log.filterMap Event.file =
      (sampled s.card true files).reverse ++ s.log.filterMap Event.file :=
    samples_encrollImageSD t h
  have heq := sampled_eq_iff s.card true files (by decide)
  simp only [true_and] at heq
  have hg := grouped_iff s.card
  constructor
  · rintro ⟨h1, h2⟩
    rw [hs, List.append_cancel_right_eq, List.reverse_inj] at h1
    exact ⟨heq.1 h1, hg.1 h2⟩
  · rintro ⟨h1, h2⟩
    exact ⟨by rw [hs, heq.2 h1], hg.2 h2⟩

set_option maxRecDepth 10000 in
/-- A card with all ten images. -/
theorem enrolled_full : ∃ s', finish react (List.replicate 158 (.run {})) [encrollImageSD .loop]
      (powerOn fun _ => {}) = some s' ∧ Enrolled (powerOn fun _ => {}) s' := by
  have hends : (finish react (List.replicate 158 (.run {})) [encrollImageSD .loop]
      (powerOn fun _ => {})).isSome = true := by decide +kernel
  obtain ⟨s', h⟩ := Option.isSome_iff_exists.1 hends
  exact ⟨s', h, (enrolled_iff .loop _ _ s' h).2 ⟨by decide, by decide⟩⟩

/-- A card with one image. -/
def single (file : Nat) : Nat → Image := fun j => { present := j = file }

/-- With the first image missing the second one gives no sample. -/
theorem not_enrolled : ¬ ∀ (t : Task) (xs : List (Choice Env Outside)) (s s' : State),
    finish react xs [encrollImageSD t] s = some s' → Enrolled s s' := by
  intro h
  have hs := (h .loop (List.replicate 38 (.run {})) (powerOn (single 2)) _ rfl).samples
  exact absurd hs (by decide)

end Cam

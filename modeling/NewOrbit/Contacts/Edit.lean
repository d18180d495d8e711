import NewOrbit.Contacts.Controller
import NewOrbit.Lib.Machine

/-!
# `Contacts.Edit` — the form that changes a contact

The form shows the contact that its request has brought, and what was typed since. A submission sends the name, the
address, the city and the phone, but not the email; instead it picks a postal code, which no contact has. `update`
keeps what is not sent. So the stored contact is what the form shows exactly when the email in the form is the
stored one, and every input the form has no text for shows what is stored (`saved_iff`).
-/

namespace NewOrbit.Contacts

/-! ## Objects

The form sends and is sent objects of JavaScript, where a property may be null or missing. Parsing a body leaves the
texts. -/

inductive Value where
  | undefined
  | null
  | string (text : String)
  deriving DecidableEq, Repr

def Value.text : Value → Option String
  | .string text => some text
  | _            => none

abbrev Object := Property → Value

/-- A contact as it arrives: null is written as such. -/
def Object.ofContact (c : Contact) : Object
  | .postalCode => .undefined
  | p           => ((c.get p).map Value.string).getD .null

/-- The body of a request as it is read: what is undefined is left out of the text, and then null in the contact.
    Properties that a contact does not have are passed over. -/
def Object.toContact (o : Object) : Contact where
  id      := (o .id).text
  name    := (o .name).text
  address := (o .address).text
  city    := (o .city).text
  phone   := (o .phone).text
  email   := (o .email).text

theorem ofContact_of_ne (c : Contact) {p : Property} (hp : p ≠ .postalCode) :
    Object.ofContact c p = ((c.get p).map Value.string).getD .null := by
  cases p with
  | postalCode => exact absurd rfl hp
  | _ => rfl

/-! ## The form

An input that React is given neither null nor a missing value shows what the state has; else it keeps the text it
shows. -/

/-- The names of the inputs. -/
def inputs : List Property := [.name, .address, .city, .phone, .email]

/-- The component's state, and the texts in the inputs. -/
structure Edit where
  contact : Object
  shown : Property → String

namespace Edit

def initial : Edit := { contact := fun _ => .undefined, shown := fun _ => "" }

/-- The form is rendered again: an input whose value is undefined or null keeps the text it has. -/
def setState (form : Edit) (contact : Object) : Edit where
  contact := contact
  shown := fun p => (contact p).text.getD (form.shown p)

/-- `res.data` has arrived. Where it is null, rendering the form throws, and it is gone. -/
def receive (form : Edit) (data : Option Contact) : Option Edit :=
  data.map fun c => form.setState (Object.ofContact c)

def onChange (form : Edit) (p : Property) (text : String) : Edit :=
  form.setState (Function.update form.contact p (.string text))

/-- The properties that `onSubmit` picks. -/
def picked : List Property := [.name, .address, .city, .postalCode, .phone]

/-- The body of the request. -/
def onSubmit (form : Edit) : Object := fun p => if p ∈ picked then form.contact p else .undefined

end Edit

/-! ## Runs

The form's requests are for the contact under `id`. Other clients write at any time. -/

/-- What has become of the request that `componentDidMount` sends. -/
inductive Response where
  | asked
  | answered (data : Option Contact)
  | arrived
  deriving DecidableEq, Repr

structure System where
  repository : ContactRepository
  response : Response
  form : Option Edit

inductive Action where
  | handle (r : Request)
  | answer
  | arrive
  | onChange (p : Property) (text : String)
  | onSubmit (generated : String)

namespace System

def componentDidMount (repo : ContactRepository) : System :=
  { repository := repo, response := .asked, form := some Edit.initial }

def step (id : String) (s : System) : Action → Option System
  | .handle r           => some { s with repository := r.handle s.repository }
  | .answer             =>
      if s.response = .asked then some { s with response := .answered (show_ s.repository id) } else none
  | .arrive             =>
      match s.response with
      | .answered data => some { s with response := .arrived, form := s.form.bind (·.receive data) }
      | _              => none
  | .onChange p text    =>
      if p ∈ inputs then s.form.map fun form => { s with form := some (form.onChange p text) } else none
  | .onSubmit generated =>
      s.form.map fun form =>
        { s with repository := (Request.update generated id form.onSubmit.toContact).handle s.repository }

end System

/-! ## What the form shows

By induction on the run: whatever has arrived or was typed, an input shows the text that the state has for it. -/

/-- An input shows the text that the state has for it. -/
def Rendered (form : Edit) : Prop := ∀ p text, form.contact p = .string text → form.shown p = text

theorem rendered_setState (form : Edit) (contact : Object) : Rendered (form.setState contact) := by
  intro p text htext
  show (contact p).text.getD _ = text
  rw [show contact p = .string text from htext]
  rfl

theorem rendered_step {id : String} {s t : System} {a : Action} (h : ∀ form, s.form = some form → Rendered form)
    (hstep : System.step id s a = some t) : ∀ form, t.form = some form → Rendered form := by
  cases a with
  | handle r =>
      cases hstep
      exact h
  | answer =>
      simp only [System.step, Option.ite_none_right_eq_some, Option.some.injEq] at hstep
      obtain ⟨-, rfl⟩ := hstep
      exact h
  | arrive =>
      rw [System.step] at hstep
      split at hstep
      · cases hstep
        intro form hform
        obtain ⟨form', -, hreceive⟩ := Option.bind_eq_some_iff.mp hform
        obtain ⟨c, -, rfl⟩ := Option.map_eq_some_iff.mp hreceive
        exact rendered_setState form' _
      · cases hstep
  | onChange p text =>
      simp only [System.step, Option.ite_none_right_eq_some, Option.map_eq_some_iff] at hstep
      obtain ⟨-, form', -, rfl⟩ := hstep
      intro form hform
      cases hform
      exact rendered_setState form' _
  | onSubmit generated =>
      obtain ⟨form', hform', rfl⟩ := Option.map_eq_some_iff.mp hstep
      exact h

/-- **The form shows its state**, in every run. -/
theorem rendered_run {id : String} {repo : ContactRepository} {tr : List Action} {s : System}
    (h : Machine.exec (System.step id) tr (System.componentDidMount repo) = some s) :
    ∀ form, s.form = some form → Rendered form := by
  apply Machine.exec_invariant (fun s a t hs hstep => rendered_step hs hstep) _ h
  intro form hform p text htext
  cases hform
  cases htext

/-! ## What a submission stores

A field ends as what was sent of it, or as it was. The email is never sent, so it must be in the form as it is stored,
and the same goes for an input that the state has no text for. -/

/-- The contact under `id` is what the form shows, and the others are as before. -/
structure Saved (id : String) (form : Edit) (repo repo' : ContactRepository) : Prop where
  contact : ∃ c, repo'.findById id = some c ∧ c.id = some id ∧ ∀ p ∈ inputs, c.get p = some (form.shown p)
  others : ∀ id', id' ≠ id → repo'.findById id' = repo.findById id'

/-- The state has no text for the input: nothing has arrived for it, and nothing was typed. -/
def Edit.Unfilled (form : Edit) (p : Property) : Prop := ∀ text, form.contact p ≠ .string text

theorem get_onSubmit (form : Edit) {p : Property} (hp : p ∈ inputs) :
    form.onSubmit.toContact.get p = if p = .email then none else (form.contact p).text := by
  simp only [inputs, List.mem_cons, List.not_mem_nil, or_false] at hp
  rcases hp with rfl | rfl | rfl | rfl | rfl <;> rfl

/-- **What is stored for an input** is its text, if it was sent, and the old one if not. -/
theorem get_submitted {form : Edit} (hform : Rendered form) (c : Contact) {p : Property} (hp : p ∈ inputs) :
    (c.updated form.onSubmit.toContact).get p = some (form.shown p) ↔
      (p = .email ∨ form.Unfilled p → c.get p = some (form.shown p)) := by
  have hid : p ≠ .id := by
    rintro rfl
    exact absurd hp (by decide)
  rw [get_updated c _ hid, Override.overlay, get_onSubmit form hp]
  by_cases hemail : p = .email
  · simp [hemail]
  · rw [if_neg hemail]
    cases hvalue : form.contact p with
    | string text =>
        have hfilled : ¬ form.Unfilled p := fun h => h text hvalue
        have hshown := hform p text hvalue
        simp [Value.text, hemail, hfilled, hshown]
    | _ =>
        have hunfilled : form.Unfilled p := fun text h => by rw [hvalue] at h; cases h
        simp [Value.text, hunfilled]

theorem saved_iff_get {id : String} {form : Edit} {repo : ContactRepository} {c : Contact}
    (hc : repo.findById id = some c) (generated : String) :
    Saved id form repo ((Request.update generated id form.onSubmit.toContact).handle repo) ↔
      ∀ p ∈ inputs, (c.updated form.onSubmit.toContact).get p = some (form.shown p) := by
  obtain ⟨repo', hupdate, hnew, hothers⟩ := findById_update hc generated form.onSubmit.toContact
  have hhandle : (Request.update generated id form.onSubmit.toContact).handle repo = repo' := by
    show (Contacts.update repo generated id _).toOption.getD repo = _
    rw [hupdate]
    rfl
  rw [hhandle]
  constructor
  · rintro ⟨⟨c', hget, -, hall⟩, -⟩
    rw [hnew] at hget
    cases hget
    exact hall
  · intro hall
    exact ⟨⟨_, hnew, repo'.keyed id _ hnew, hall⟩, hothers⟩

/-- A submission of a form that shows its state. -/
theorem saved_onSubmit_iff {id : String} {s : System} {form : Edit} (hform : s.form = some form)
    (hrendered : Rendered form) {c : Contact} (hc : s.repository.findById id = some c) (generated : String) :
    (∃ t, s.step id (.onSubmit generated) = some t ∧ Saved id form s.repository t.repository) ↔
      c.email = some (form.shown .email) ∧ ∀ p ∈ inputs, form.Unfilled p → c.get p = some (form.shown p) := by
  have hstep : s.step id (.onSubmit generated) = some
      { s with repository := (Request.update generated id form.onSubmit.toContact).handle s.repository } := by
    rw [System.step, hform]
    rfl
  rw [hstep]
  simp only [Option.some.injEq, exists_eq_left', saved_iff_get hc]
  constructor
  · intro hall
    refine ⟨?_, fun p hp hunfilled => (get_submitted hrendered c hp).mp (hall p hp) (Or.inr hunfilled)⟩
    exact (get_submitted hrendered c (p := .email) (by decide)).mp (hall .email (by decide)) (Or.inl rfl)
  · rintro ⟨hemail, hunfilled⟩ p hp
    apply (get_submitted hrendered c hp).mpr
    rintro (rfl | h)
    · exact hemail
    · exact hunfilled p hp h

/-- **A submission makes the stored contact what the form shows exactly when the form has the stored email, and the
    inputs without a text of the state show what is stored.** -/
theorem saved_iff (id : String) (repo : ContactRepository) (tr : List Action) (s : System)
    (hrun : Machine.exec (System.step id) tr (System.componentDidMount repo) = some s) (form : Edit)
    (hform : s.form = some form) (c : Contact) (hc : s.repository.findById id = some c) (generated : String) :
    (∃ t, s.step id (.onSubmit generated) = some t ∧ Saved id form s.repository t.repository) ↔
      c.email = some (form.shown .email) ∧ ∀ p ∈ inputs, form.Unfilled p → c.get p = some (form.shown p) :=
  saved_onSubmit_iff hform (rendered_run hrun form hform) hc generated

/-! ## A contact with all fields set

Where the contact that arrived has every field, only the email is left of the condition. -/

/-- Typing fills an input and empties none. -/
theorem filled_onChange {form : Edit} (h : ∀ p ∈ inputs, ¬ form.Unfilled p) (q : Property) (text : String) :
    ∀ p ∈ inputs, ¬ (form.onChange q text).Unfilled p := by
  intro p hp hunfilled
  by_cases hpq : p = q
  · subst hpq
    exact hunfilled text (Function.update_self ..)
  · apply h p hp
    intro text' htext'
    exact hunfilled text' ((Function.update_of_ne hpq _ _).trans htext')

theorem filled_ofContact {c : Contact} (h : ∀ p ∈ inputs, c.get p ≠ none) (form : Edit) :
    ∀ p ∈ inputs, ¬ (form.setState (Object.ofContact c)).Unfilled p := by
  intro p hp hunfilled
  have hpostal : p ≠ .postalCode := by
    rintro rfl
    exact absurd hp (by decide)
  obtain ⟨text, htext⟩ := Option.ne_none_iff_exists'.mp (h p hp)
  apply hunfilled text
  show Object.ofContact c p = _
  rw [ofContact_of_ne c hpostal, htext]
  rfl

/-- The form with a contact, after some edits. -/
def Edit.edited (c : Contact) (edits : List (Property × String)) : Edit :=
  edits.foldl (fun form e => form.onChange e.1 e.2) (Edit.initial.setState (Object.ofContact c))

theorem filled_edited {c : Contact} (h : ∀ p ∈ inputs, c.get p ≠ none) (edits : List (Property × String)) :
    ∀ p ∈ inputs, ¬ (Edit.edited c edits).Unfilled p := by
  induction edits using List.reverseRecOn with
  | nil => exact filled_ofContact h _
  | append_singleton edits e ih =>
      rw [Edit.edited, List.foldl_concat]
      exact filled_onChange ih e.1 e.2

theorem exec_onChange (id : String) (edits : List (Property × String)) (hedits : ∀ e ∈ edits, e.1 ∈ inputs)
    (s : System) (form : Edit) (hform : s.form = some form) :
    Machine.exec (System.step id) (edits.map fun e => Action.onChange e.1 e.2) s =
      some { s with form := some (edits.foldl (fun form e => form.onChange e.1 e.2) form) } := by
  induction edits generalizing s form with
  | nil =>
      rw [List.foldl_nil, ← hform]
      rfl
  | cons e edits ih =>
      rw [List.forall_mem_cons] at hedits
      have hstep : System.step id s (.onChange e.1 e.2) = some { s with form := some (form.onChange e.1 e.2) } := by
        rw [System.step, if_pos hedits.1, hform]
        rfl
      rw [List.map_cons, Machine.exec, hstep]
      exact ih hedits.2 _ _ rfl

/-- **Any edits of a contact with all fields set**: they are all stored if the email was left as it is, and not
    otherwise. -/
theorem saved_edited_iff {id : String} {repo : ContactRepository} {c : Contact} (hc : repo.findById id = some c)
    (hset : ∀ p ∈ inputs, c.get p ≠ none) {edits : List (Property × String)} (hedits : ∀ e ∈ edits, e.1 ∈ inputs)
    (generated : String) :
    ∃ s, Machine.exec (System.step id) (.answer :: .arrive :: edits.map fun e => .onChange e.1 e.2)
        (System.componentDidMount repo) = some s ∧
      ((∃ t, s.step id (.onSubmit generated) = some t ∧ Saved id (Edit.edited c edits) repo t.repository) ↔
        c.email = some ((Edit.edited c edits).shown .email)) := by
  have hload : Machine.exec (System.step id) [.answer, .arrive] (System.componentDidMount repo) = some
      { repository := repo, response := .arrived, form := some (Edit.initial.setState (Object.ofContact c)) } := by
    show some (System.mk repo .arrived ((some Edit.initial).bind (·.receive (repo.findById id)))) = _
    rw [hc]
    rfl
  have hrun := exec_onChange id edits hedits
    { repository := repo, response := .arrived, form := some (Edit.initial.setState (Object.ofContact c)) } _ rfl
  have hexec : Machine.exec (System.step id) ([.answer, .arrive] ++ edits.map fun e => .onChange e.1 e.2)
      (System.componentDidMount repo) = some
        { repository := repo, response := .arrived, form := some (Edit.edited c edits) } := by
    rw [Machine.exec_append, hload]
    exact hrun
  refine ⟨_, hexec, ?_⟩
  rw [saved_onSubmit_iff rfl (rendered_run hexec _ rfl) hc]
  exact and_iff_left fun p hp hunfilled => absurd hunfilled (filled_edited hset edits p hp)

/-! ## One contact -/

def ada : Contact :=
  { id := none, name := some "Ada", address := some "1 Mill Lane", city := some "Leeds", phone := some "12",
    email := some "ada@mill" }

def adaOnly : ContactRepository := ContactRepository.empty.put "1" ada

/-- A new name is stored. -/
theorem saved_iff_name : ∃ s form, Machine.exec (System.step "1") [.answer, .arrive, .onChange .name "Ada B."]
      (System.componentDidMount adaOnly) = some s ∧ s.form = some form ∧
    ∃ t, s.step "1" (.onSubmit "2") = some t ∧ Saved "1" form s.repository t.repository := by
  refine ⟨_, _, rfl, rfl, ?_⟩
  refine (saved_iff "1" adaOnly [.answer, .arrive, .onChange .name "Ada B."] _ rfl _ rfl
    { ada with id := some "1" } rfl "2").mpr ⟨rfl, fun p hp hunfilled => ?_⟩
  simp only [inputs, List.mem_cons, List.not_mem_nil, or_false] at hp
  rcases hp with rfl | rfl | rfl | rfl | rfl <;> exact absurd rfl (hunfilled _)

/-- A new email is not. -/
theorem not_always_saved : ¬ ∀ (id : String) (repo : ContactRepository) (tr : List Action) (s : System) (form : Edit)
    (c : Contact), Machine.exec (System.step id) tr (System.componentDidMount repo) = some s → s.form = some form →
      s.repository.findById id = some c → (∀ p ∈ inputs, c.get p ≠ none) → ∀ generated,
        ∃ t, s.step id (.onSubmit generated) = some t ∧ Saved id form s.repository t.repository := by
  intro h
  have hset : ∀ p ∈ inputs, ({ ada with id := some "1" } : Contact).get p ≠ none := by decide
  have hfind : adaOnly.findById "1" = some { ada with id := some "1" } := rfl
  have hsaved := h "1" adaOnly [.answer, .arrive, .onChange .email "ada@leeds"] _ _ _ rfl rfl hfind hset "2"
  have hemail := ((saved_onSubmit_iff rfl (rendered_setState _ _) hfind "2").mp hsaved).1
  exact absurd hemail (by decide)

end NewOrbit.Contacts

import NewOrbit.Lib.LinkedMap
import NewOrbit.Lib.Override

/-!
# `Contacts.Controller` — the contacts, and the requests on them

The repository has a contact under each id, with that id in it. `update` takes those fields from the request that
are not null and keeps the others, so the contact it stores is the request laid over the old one (`get_updated`);
the id is kept, and so is every other contact (`findById_update`).
-/

namespace NewOrbit.Contacts

/-! ## Contacts -/

/-- The properties that `contact-frontend` reads or writes. -/
inductive Property where
  | id
  | name
  | address
  | city
  | postalCode
  | phone
  | email
  deriving DecidableEq, Repr

/-- `none` is null. -/
structure Contact where
  id : Option String
  name : Option String
  address : Option String
  city : Option String
  phone : Option String
  email : Option String
  deriving DecidableEq, Repr

namespace Contact

/-- The getters. A contact has no postal code. -/
def get (c : Contact) : Property → Option String
  | .id         => c.id
  | .name       => c.name
  | .address    => c.address
  | .city       => c.city
  | .postalCode => none
  | .phone      => c.phone
  | .email      => c.email

/-- The fields that `update` sets. -/
def updated (c contact : Contact) : Contact :=
  let c := if contact.name ≠ none then { c with name := contact.name } else c
  let c := if contact.address ≠ none then { c with address := contact.address } else c
  let c := if contact.city ≠ none then { c with city := contact.city } else c
  let c := if contact.phone ≠ none then { c with phone := contact.phone } else c
  if contact.email ≠ none then { c with email := contact.email } else c

end Contact

/-! ## The repository -/

/-- A contact has the id it is found under. -/
structure ContactRepository where
  contacts : LinkedMap String Contact
  keyed : ∀ id c, contacts.get id = some c → c.id = some id

inductive Fault where
  | noSuchElement
  | duplicateKey
  deriving DecidableEq, Repr

namespace ContactRepository

def empty : ContactRepository where
  contacts := LinkedMap.empty
  keyed := fun _ _ h => nomatch h

def findById (repo : ContactRepository) (id : String) : Option Contact := repo.contacts.get id

def put (repo : ContactRepository) (id : String) (c : Contact) : ContactRepository where
  contacts := repo.contacts.put id { c with id := some id }
  keyed := by
    intro id' c' hget
    rw [LinkedMap.get_put] at hget
    split at hget
    · rename_i hid
      rw [← Option.some.inj hget, hid]
    · exact repo.keyed id' c' hget

def erase (repo : ContactRepository) (id : String) : ContactRepository where
  contacts := repo.contacts.erase id
  keyed := by
    intro id' c' hget
    rw [LinkedMap.get_erase] at hget
    split at hget
    · cases hget
    · exact repo.keyed id' c' hget

/-- A contact without an id is inserted under the one that the driver generates. -/
def save (repo : ContactRepository) (generated : String) (c : Contact) : Except Fault ContactRepository :=
  match c.id with
  | some id => .ok (repo.put id c)
  | none    => if generated ∈ repo.contacts.keys then .error .duplicateKey else .ok (repo.put generated c)

/-- The contact with the id of `deleted` goes. -/
def delete (repo : ContactRepository) (deleted : Contact) : ContactRepository :=
  match deleted.id with
  | some id => repo.erase id
  | none    => repo

end ContactRepository

/-! ## The requests -/

/-- `GET /contacts/{id}` -/
def show_ (repo : ContactRepository) (id : String) : Option Contact := repo.findById id

/-- `PUT /contacts/{id}` -/
def update (repo : ContactRepository) (generated id : String) (contact : Contact) : Except Fault ContactRepository :=
  match repo.findById id with
  | none   => .error .noSuchElement
  | some c => repo.save generated (c.updated contact)

/-- `DELETE /contacts/{id}` -/
def delete (repo : ContactRepository) (id : String) : Except Fault ContactRepository :=
  match repo.findById id with
  | none         => .error .noSuchElement
  | some contact => .ok (repo.delete contact)

/-- A request that writes, with the id that the driver would generate. -/
inductive Request where
  | save (generated : String) (contact : Contact)
  | update (generated id : String) (contact : Contact)
  | delete (id : String)

/-- What a request leaves. One that fails leaves everything. -/
def Request.handle (repo : ContactRepository) : Request → ContactRepository
  | .save generated contact      => (repo.save generated contact).toOption.getD repo
  | .update generated id contact => (Contacts.update repo generated id contact).toOption.getD repo
  | .delete id                   => (Contacts.delete repo id).toOption.getD repo

/-! ## What `update` stores -/

/-- Each of the five fields is that of the request, if it is not null there. -/
theorem updated_eq (c contact : Contact) : c.updated contact =
    { id      := c.id
      name    := contact.name.or c.name
      address := contact.address.or c.address
      city    := contact.city.or c.city
      phone   := contact.phone.or c.phone
      email   := contact.email.or c.email } := by
  obtain ⟨id, name, address, city, phone, email⟩ := contact
  cases name <;> cases address <;> cases city <;> cases phone <;> cases email <;> rfl

/-- **The request is laid over the stored contact**, but for its id. -/
theorem get_updated (c contact : Contact) {p : Property} (hp : p ≠ .id) :
    (c.updated contact).get p = Override.overlay c.get contact.get p := by
  rw [updated_eq]
  cases p with
  | id => exact absurd rfl hp
  | _ => rfl

/-- **An update of a contact that is there** changes it alone, and leaves its id. -/
theorem findById_update {repo : ContactRepository} {id : String} {c : Contact} (h : repo.findById id = some c)
    (generated : String) (contact : Contact) :
    ∃ repo', update repo generated id contact = .ok repo' ∧ repo'.findById id = some (c.updated contact) ∧
      ∀ id', id' ≠ id → repo'.findById id' = repo.findById id' := by
  have hid : (c.updated contact).id = some id := by
    rw [updated_eq]
    exact repo.keyed id c h
  have hput : ∀ id', (repo.put id (c.updated contact)).findById id' =
      if id' = id then some (c.updated contact) else repo.findById id' := by
    intro id'
    show (repo.contacts.put id { c.updated contact with id := some id }).get id' = _
    rw [LinkedMap.get_put, ← hid]
    rfl
  refine ⟨repo.put id (c.updated contact), ?_, ?_, fun id' hne => ?_⟩
  · rw [update, h]
    show repo.save generated (c.updated contact) = _
    rw [ContactRepository.save, hid]
  · rw [hput, if_pos rfl]
  · rw [hput, if_neg hne]

end NewOrbit.Contacts

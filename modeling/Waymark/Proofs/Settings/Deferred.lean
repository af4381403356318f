import Waymark.Proofs.Document.Accepted
import Waymark.Proofs.Document.Covered
import Waymark.Settings
/-!
# Settings written at once and later

Whatever changes settings asks for a save as well. What is written at every save and what is written
only once for many saves is therefore the same in the end.
-/

namespace Waymark

namespace Settings

inductive Operation where
  | assign (name raw : String)
  | toggleFavorite (location : Location) (icon : Option String)
  | pruneFavorites (isThere : String → Bool)
  | setShortcut (command keys : String)

inductive Outcome where
  | assigned (result : Except Failure Bool)
  | toggled (toggle : Toggle)
  | changed (changed : Bool)

def perform (document : Document) (disk : Disk) : Operation → Document × Disk × Outcome
  | .assign name raw =>
      let (document, disk, result) := document.assign schema disk name raw
      (document, disk, .assigned result)
  | .toggleFavorite location icon =>
      let (document, disk, toggle) := toggleFavorite document disk location icon
      (document, disk, .toggled toggle)
  | .pruneFavorites isThere =>
      let (document, disk, changed) := pruneFavorites document disk isThere
      (document, disk, .changed changed)
  | .setShortcut command keys =>
      let (document, disk, changed) := setShortcut document disk command keys
      (document, disk, .changed changed)

namespace Operation

def keptFavorites (bag : Bag) (isThere : String → Bool) : List Favorite :=
  (favorites bag).filter fun favorite => isThere favorite.key

def shortcutsWith (bag : Bag) (command keys : String) : Json :=
  shortcutsValue (bound (shortcuts bag) command keys)

def request? (bag : Bag) : Operation → Option (String × Json)
  | .assign name raw =>
      match schema.assignment name raw with
      | .error _ => none
      | .ok (name, value) => if (bag.set name value).2 then some (name, value) else none
  | .toggleFavorite location icon =>
      some ("favorites", favoritesValue (toggled (favorites bag) location icon).1)
  | .pruneFavorites isThere =>
      if (keptFavorites bag isThere).length = (favorites bag).length then none
      else some ("favorites", favoritesValue (keptFavorites bag isThere))
  | .setShortcut command keys =>
      if (bag.set "shortcuts" (shortcutsWith bag command keys)).2 then
        some ("shortcuts", shortcutsWith bag command keys)
      else none

def outcome (bag : Bag) : Operation → Outcome
  | .assign name raw =>
      .assigned ((schema.assignment name raw).map fun (name, value) => (bag.set name value).2)
  | .toggleFavorite location icon => .toggled (toggled (favorites bag) location icon).2
  | .pruneFavorites isThere =>
      .changed ((keptFavorites bag isThere).length ≠ (favorites bag).length)
  | .setShortcut command keys =>
      .changed (bag.set "shortcuts" (shortcutsWith bag command keys)).2

end Operation

variable {document : Document} {disk : Disk}

theorem set_changed {name : String} {value : Json}
    (changed : (document.bag.set name value).2 = true) :
    ∃ after, document.set name value = (after, true) :=
  ⟨_, Prod.ext rfl ((document.set_flag name value).trans changed)⟩

theorem set_unchanged {name : String} {value : Json}
    (unchanged : (document.bag.set name value).2 = false) :
    document.set name value = (document, false) := by
  unfold Document.set
  split
  · rename_i changed
    rw [changed] at unchanged
    cases unchanged
  · rfl

theorem save_ok (accepts : disk.Accepts document.path) (delay : Nat) :
    (document.save disk delay).2.2 = .ok () := by
  by_cases now : delay = 0 ∨ document.writer = none
  · rw [Document.save_accepted now accepts]
  · obtain ⟨deferred, held⟩ := not_or.mp now
    obtain ⟨writer, held⟩ := Option.ne_none_iff_exists'.mp held
    rw [Document.save_deferred deferred held]

theorem assign_eq (accepts : disk.Accepts document.path) {schema : Schema} {name raw key : String}
    {value : Json} (accepted : schema.assignment name raw = .ok (key, value)) :
    document.assign schema disk name raw =
      if (document.bag.set key value).2 then
        ((document.setAndSave disk key value).1, (document.setAndSave disk key value).2, .ok true)
      else (document, disk, .ok false) := by
  rw [Document.assign, Document.setText, accepted]
  dsimp only
  cases changed : (document.bag.set key value).2 with
  | false =>
      rw [set_unchanged changed]
      rfl
  | true =>
      obtain ⟨after, done⟩ := set_changed changed
      have path : after.path = document.path := by
        have same := (document.changes_set key value).path
        rwa [done] at same
      have ok := save_ok (path ▸ accepts) Document.soon
      simp [done, ok, Document.setAndSave, Document.saveSoon, Except.map]

theorem setShortcut_eq (document : Document) (disk : Disk) (command keys : String) :
    let value := Operation.shortcutsWith document.bag command keys
    setShortcut document disk command keys =
      if (document.bag.set "shortcuts" value).2 then
        ((document.setAndSave disk "shortcuts" value).1,
          (document.setAndSave disk "shortcuts" value).2, true)
      else (document, disk, false) := by
  unfold setShortcut Operation.shortcutsWith
  dsimp only
  generalize shortcutsValue (bound (shortcuts document.bag) command keys) = value
  cases changed : (document.bag.set "shortcuts" value).2 with
  | false =>
      rw [set_unchanged changed]
      rfl
  | true =>
      obtain ⟨after, done⟩ := set_changed changed
      simp [done, Document.setAndSave]

theorem pruneFavorites_eq (document : Document) (disk : Disk) (isThere : String → Bool) :
    let kept := Operation.keptFavorites document.bag isThere
    pruneFavorites document disk isThere =
      if kept.length = (favorites document.bag).length then (document, disk, false)
      else ((document.setAndSave disk "favorites" (favoritesValue kept)).1,
        (document.setAndSave disk "favorites" (favoritesValue kept)).2, true) :=
  rfl

theorem perform_eq (accepts : disk.Accepts document.path) (operation : Operation) :
    perform document disk operation =
      match operation.request? document.bag with
      | none => (document, disk, operation.outcome document.bag)
      | some (name, value) =>
          ((document.setAndSave disk name value).1, (document.setAndSave disk name value).2,
            operation.outcome document.bag) := by
  cases operation with
  | assign name raw =>
      simp only [perform, Operation.request?, Operation.outcome]
      cases given : schema.assignment name raw with
      | error failure => simp [Document.assign, Document.setText, given, Except.map]
      | ok assigned =>
          simp only [assign_eq accepts given, Except.map]
          cases changed : (document.bag.set assigned.1 assigned.2).2 <;> rfl
  | toggleFavorite location icon => rfl
  | pruneFavorites isThere =>
      simp only [perform, Operation.request?, Operation.outcome, pruneFavorites_eq]
      by_cases same : (Operation.keptFavorites document.bag isThere).length =
        (favorites document.bag).length <;> simp [same]
  | setShortcut command keys =>
      simp only [perform, Operation.request?, Operation.outcome, setShortcut_eq]
      cases changed : (document.bag.set "shortcuts"
        (Operation.shortcutsWith document.bag command keys)).2 <;> rfl

inductive Event where
  | operate (operation : Operation)
  | due (now : Nat)
  | wait (now later : Nat)

def operations (events : List Event) : List Operation :=
  events.filterMap fun
    | .operate operation => some operation
    | .due _ | .wait .. => none

structure Use where
  document : Document
  disk : Disk
  outcomes : List Outcome

namespace Use

def start (disk : Disk) (path : Path) (hasWriter : Bool) : Use :=
  ⟨.open disk path hasWriter, disk, []⟩

def act (use : Use) : Event → Use
  | .operate operation =>
      let (document, disk, outcome) := perform use.document use.disk operation
      ⟨document, disk, use.outcomes ++ [outcome]⟩
  | .due now =>
      let (document, disk) := use.document.serveDue use.disk now
      { use with document, disk }
  | .wait now later =>
      let (document, disk) := use.document.wait use.disk now later
      { use with document, disk }

def run (use : Use) (events : List Event) : Use :=
  events.foldl act use

inductive Ending where
  | flush (now : Nat)
  | drop

def finish (use : Use) : Ending → Document × Disk
  | .flush now =>
      let (document, disk, _) := use.document.flush use.disk now
      (document, disk)
  | .drop =>
      let (document, disk, _) := use.document.writePending use.disk
      (document, disk)

end Use

structure Progress where
  bag : Bag
  isSaved : Bool
  outcomes : List Outcome

namespace Progress

def after (progress : Progress) (operation : Operation) : Progress :=
  let outcomes := progress.outcomes ++ [operation.outcome progress.bag]
  match operation.request? progress.bag with
  | none => { progress with outcomes }
  | some (name, value) => ⟨(progress.bag.set name value).1, true, outcomes⟩

def start (bag : Bag) : Progress :=
  ⟨bag, false, []⟩

def of (bag : Bag) (operations : List Operation) : Progress :=
  operations.foldl after (start bag)

end Progress

end Settings
end Waymark

import Waymark.Proofs.Key.Distinct
import Waymark.Proofs.Settings.Favorites
import Waymark.Proofs.Settings.Texts
/-!
# Favorites as an ordered set

The favorites of the settings are told apart by their keys. However often they are toggled and
pruned, no key comes twice, the others stay in their order, and the settings hold nothing else than
before.
-/

namespace Waymark

open Json

namespace Favorite

def Distinct (favorites : List Favorite) : Prop :=
  favorites.Pairwise fun a b => Key.same a.key b.key = false

end Favorite

namespace Settings

inductive Pinning where
  | toggle (location : Location) (icon : Option String)
  | prune (isThere : String → Bool)

namespace Pinning

def act (document : Document) (disk : Disk) : Pinning → Document × Disk
  | toggle location icon =>
      let (document, disk, _) := toggleFavorite document disk location icon
      (document, disk)
  | prune isThere =>
      let (document, disk, _) := pruneFavorites document disk isThere
      (document, disk)

def run (document : Document) (disk : Disk) (pinnings : List Pinning) : Document × Disk :=
  pinnings.foldl (fun stage pinning => pinning.act stage.1 stage.2) (document, disk)

/-- What favorites become as a set in the order of their coming: a location is taken out if it is
in, and put last if it is not. -/
def effect (favorites : List Favorite) : Pinning → List Favorite
  | toggle location icon =>
      if ∃ favorite ∈ favorites, Key.same favorite.key location.key = true then
        favorites.filter fun favorite => !Key.same favorite.key location.key
      else favorites ++ [⟨location.key, location.name, icon⟩]
  | prune isThere => favorites.filter fun favorite => isThere favorite.key

end Pinning

variable {favorites : List Favorite} {location : Location} {icon : Option String}

theorem toggled_fst (distinct : Favorite.Distinct favorites) :
    (toggled favorites location icon).1 = Pinning.effect favorites (.toggle location icon) := by
  unfold toggled Pinning.effect
  simp only [List.any_eq_true]
  split
  · exact Key.eraseP_eq_filter Favorite.key distinct location.key
  · rfl

theorem toggled_snd : (toggled favorites location icon).2 = .added ↔
    ∀ favorite ∈ favorites, Key.same favorite.key location.key = false := by
  unfold toggled
  dsimp only
  split
  · rename_i found
    obtain ⟨favorite, inside, same⟩ := List.any_eq_true.mp found
    refine iff_of_false nofun fun none => ?_
    exact absurd same (by simp [none favorite inside])
  · rename_i missing
    refine iff_of_true rfl fun favorite inside => Bool.eq_false_iff.mpr fun same => ?_
    exact missing (List.any_eq_true.mpr ⟨favorite, inside, same⟩)

theorem distinct_effect (distinct : Favorite.Distinct favorites) (pinning : Pinning) :
    Favorite.Distinct (pinning.effect favorites) := by
  cases pinning with
  | prune isThere => exact distinct.filter _
  | toggle location icon =>
      unfold Pinning.effect
      dsimp only
      split
      · exact distinct.filter _
      · rename_i missing
        refine List.pairwise_append.mpr ⟨distinct, List.pairwise_singleton _ _, ?_⟩
        intro favorite inside new last
        rw [List.mem_singleton.mp last]
        exact Bool.eq_false_iff.mpr fun same => missing ⟨favorite, inside, same⟩

theorem toggled_toggled {again : Location} {againIcon : Option String}
    (missing : ∀ favorite ∈ favorites, Key.same favorite.key location.key = false)
    (same : Key.same location.key again.key = true) :
    (toggled (toggled favorites location icon).1 again againIcon).1 = favorites := by
  have added : (toggled favorites location icon).1 =
      favorites ++ [⟨location.key, location.name, icon⟩] := by
    rw [toggled, if_neg]
    simpa using missing
  have others : ∀ favorite ∈ favorites, ¬Key.same favorite.key again.key = true := by
    intro favorite inside equal
    have also := Key.same_of_same equal same
    rw [missing favorite inside] at also
    cases also
  rw [added, toggled, if_pos (by simp [same]), List.eraseP_append_right _ others]
  simp [same]

theorem favoritesValue_held (favorites : List Favorite) :
    (favoritesValue favorites).Held (maximumDepth - 1) := by
  refine held_array (by decide) fun item inside => ?_
  obtain ⟨favorite, -, rfl⟩ := List.mem_map.mp inside
  exact held_ofStrings (by decide) favorite.members_strings

variable {start document : Document} {disk : Disk}

/-- Settings that favorites were pinned in: these are the favorites of the list, without a key that
comes twice, and all other settings are those from the start. -/
structure Pinned (start document : Document) (list : List Favorite) : Prop where
  path : document.path = start.path
  favorites : Settings.favorites document.bag = list
  distinct : Favorite.Distinct list
  held : start.bag.Held → document.bag.Held
  whole : start.bag.NoDoubles → document.bag.NoDoubles
  others : ∀ name, Text.lower name ≠ Text.lower "favorites" →
    document.bag.find? name = start.bag.find? name

theorem Pinned.setFavorites (pinned : Pinned start document favorites) (disk : Disk)
    {list : List Favorite} (distinct : Favorite.Distinct list) :
    Pinned start (setFavorites document disk list).1 list := by
  obtain ⟨bag, path⟩ := Document.setAndSave_bag document disk "favorites" (favoritesValue list)
  exact {
    path := path.trans pinned.path
    favorites := favorites_setFavorites document disk list
    distinct := distinct
    held := by
      rw [Settings.setFavorites, bag]
      exact fun held => (pinned.held held).set _ (favoritesValue_held list)
    whole := by
      rw [Settings.setFavorites, bag]
      exact fun whole => (pinned.whole whole).set _ (favoritesValue_noDoubles list)
    others := by
      intro name different
      rw [Settings.setFavorites, bag]
      exact (Bag.findKey?_set_of_ne different).trans (pinned.others name different) }

theorem Pinned.act (pinned : Pinned start document favorites) (disk : Disk) (pinning : Pinning) :
    Pinned start (pinning.act document disk).1 (pinning.effect favorites) := by
  have distinct := distinct_effect pinned.distinct pinning
  cases pinning with
  | toggle location icon =>
      have after : (toggled favorites location icon).1 = _ := toggled_fst pinned.distinct
      rw [← after] at distinct ⊢
      simp only [Pinning.act, toggleFavorite, pinned.favorites]
      exact pinned.setFavorites disk distinct
  | prune isThere =>
      simp only [Pinning.act, pruneFavorites, pinned.favorites]
      split
      · rename_i all
        have same := List.filter_sublist.eq_of_length all
        rw [Pinning.effect, same]
        exact pinned
      · exact pinned.setFavorites disk distinct

theorem Pinned.run (pinned : Pinned start document favorites) (disk : Disk)
    (pinnings : List Pinning) :
    Pinned start (Pinning.run document disk pinnings).1
      (pinnings.foldl Pinning.effect favorites) := by
  induction pinnings generalizing document disk favorites with
  | nil => exact pinned
  | cons pinning rest ih => exact ih (pinned.act disk pinning) (pinning.act document disk).2

theorem favoriteIndex?_eq_none {bag : Bag} {key : String} : favoriteIndex? bag key = none ↔
    ∀ favorite ∈ Settings.favorites bag, Key.same favorite.key key = false :=
  List.findIdx?_eq_none_iff

/-- A location is added exactly if it is not among the favorites, and then it is among them. Whoever
adds it and toggles it again, in any spelling, has the favorites from before. -/
structure Toggles (document : Document) (disk : Disk) (location : Location) (icon : Option String) :
    Prop where
  added : (toggleFavorite document disk location icon).2.2 = .added ↔
    favoriteIndex? document.bag location.key = none
  listed : (favoriteIndex? (toggleFavorite document disk location icon).1.bag location.key).isSome ↔
    (toggleFavorite document disk location icon).2.2 = .added
  restored : favoriteIndex? document.bag location.key = none →
    ∀ again againIcon later, Key.same location.key again.key = true →
      Settings.favorites (toggleFavorite (toggleFavorite document disk location icon).1 later again
        againIcon).1.bag = Settings.favorites document.bag

theorem toggleFavorite_favorites (document : Document) (disk : Disk) (location : Location)
    (icon : Option String) :
    Settings.favorites (toggleFavorite document disk location icon).1.bag =
      (toggled (Settings.favorites document.bag) location icon).1 :=
  favorites_setFavorites document disk _

theorem toggles (distinct : Favorite.Distinct (Settings.favorites document.bag)) (disk : Disk)
    (location : Location) (icon : Option String) : Toggles document disk location icon where
  added := toggled_snd.trans favoriteIndex?_eq_none.symm
  listed := by
    rw [Option.isSome_iff_ne_none, ne_eq, favoriteIndex?_eq_none, toggleFavorite_favorites,
      toggled_fst distinct]
    change _ ↔ (toggled (Settings.favorites document.bag) location icon).2 = .added
    rw [toggled_snd, Pinning.effect]
    split
    -- All favorites of the key are gone, and not only the first.
    · rename_i found
      obtain ⟨favorite, inside, same⟩ := found
      refine iff_of_false (fun some => some fun other there => ?_) fun none => ?_
      · simpa using (List.mem_filter.mp there).2
      · exact absurd same (by simp [none favorite inside])
    · rename_i missing
      refine iff_of_true (fun none => ?_) fun favorite inside => Bool.eq_false_iff.mpr fun same =>
        missing ⟨favorite, inside, same⟩
      have new := none ⟨location.key, location.name, icon⟩ (by simp)
      rw [Key.same_refl] at new
      cases new
  restored := by
    intro missing again againIcon later same
    rw [toggleFavorite_favorites, toggleFavorite_favorites]
    exact toggled_toggled (favoriteIndex?_eq_none.mp missing) same

/-- Settings keep their favorites distinct however they are pinned, in the order of their coming. All
other settings stay. Whatever is toggled next is added exactly if it is not there, and once settings
such as some file holds are written, the favorites are the same when the file is opened. -/
theorem favorites_run (distinct : Favorite.Distinct (Settings.favorites start.bag)) (disk : Disk)
    (pinnings : List Pinning) :
    let after := (Pinning.run start disk pinnings).1
    Favorite.Distinct (Settings.favorites after.bag) ∧
      Settings.favorites after.bag =
        pinnings.foldl Pinning.effect (Settings.favorites start.bag) ∧
      (∀ name, Text.lower name ≠ Text.lower "favorites" →
        after.bag.find? name = start.bag.find? name ∧
          schema.get? after.bag name = schema.get? start.bag name) ∧
      (∀ disk location icon, Toggles after disk location icon) ∧
      ∀ (origin : Disk) (file : Path), Document.load origin file = start.bag →
        start.bag.NoDoubles → ∀ (before written : Disk) (hasWriter : Bool),
          before.replace start.path (Document.contents after.bag) = (written, .ok ()) →
            Settings.favorites (Document.open written start.path hasWriter).bag =
              Settings.favorites after.bag := by
  intro after
  have begun : Pinned start start (Settings.favorites start.bag) :=
    ⟨rfl, rfl, distinct, id, id, fun _ _ => rfl⟩
  have pinned := begun.run disk pinnings
  have apart : Favorite.Distinct (Settings.favorites after.bag) :=
    pinned.favorites.symm ▸ pinned.distinct
  refine ⟨apart, pinned.favorites, fun name different => ?_, fun disk => toggles apart disk, ?_⟩
  · have same := pinned.others name different
    exact ⟨same, Schema.get?_congr (congrArg (Option.map Property.value) same)⟩
  · intro origin file loaded whole before written hasWriter replaced
    have held : start.bag.Held := loaded ▸ Document.load_held origin file
    exact congrArg Settings.favorites
      (Document.load_replaced (pinned.held held) (pinned.whole whole) replaced)

def threeFavorites : List Favorite :=
  [⟨"/home", "home", some "/home.png"⟩, ⟨"/gone", "gone", none⟩, ⟨"/usr", "usr", none⟩]

def pinnedBag : Bag :=
  ((Bag.empty.set "Favorites" (favoritesValue threeFavorites)).1.set "width" (.integer 80)).1

def pinnedDisk (bag : Bag) : Disk :=
  ⟨[(["s.json"], .file (Document.contents bag))], []⟩

def pinnings : List Pinning :=
  [.toggle (.named "/HOME" "home") none, .prune (· ≠ "/gone"), .toggle (.named "/Home" "Home") none]

theorem pinnedBag_properties {property : Property} (inside : property ∈ pinnedBag.properties) :
    property.value.Held (maximumDepth - 1) ∧ property.value.NoDoubles := by
  rcases Bag.mem_set inside with old | ⟨-, number⟩
  · rcases Bag.mem_set old with none | ⟨-, favorites⟩
    · cases none
    · exact favorites ▸ ⟨favoritesValue_held _, favoritesValue_noDoubles _⟩
  · rw [number]
    exact ⟨⟨⟨by decide, by decide⟩, trivial, by decide⟩, trivial⟩

theorem favorites_run_threeFavorites :
    let start := Document.open (pinnedDisk pinnedBag) ⟨"/s.json"⟩ true
    let after := (Pinning.run start (pinnedDisk pinnedBag) pinnings).1
    Settings.favorites after.bag = [⟨"/usr", "usr", none⟩, ⟨"/Home", "Home", none⟩] ∧
      schema.get? after.bag "width" = some (.integer 80) ∧
      (toggleFavorite after (pinnedDisk pinnedBag) (.named "/USR" "usr") none).2.2 ≠ .added ∧
      Settings.favorites (Document.open (pinnedDisk after.bag) ⟨"/s.json"⟩ true).bag =
        Settings.favorites after.bag := by
  intro start
  have loaded : start.bag = pinnedBag :=
    Document.load_of_contents? (fun _ inside => (pinnedBag_properties inside).1)
      (fun _ inside => (pinnedBag_properties inside).2) rfl
  have read : Settings.favorites start.bag = threeFavorites := by
    rw [loaded]
    decide +kernel
  have whole : start.bag.NoDoubles := fun _ inside => (pinnedBag_properties (loaded ▸ inside)).2
  have distinct : Favorite.Distinct (Settings.favorites start.bag) := by
    rw [read]
    unfold Favorite.Distinct
    decide +kernel
  obtain ⟨-, kept, others, toggles, reopened⟩ := favorites_run distinct (pinnedDisk pinnedBag) pinnings
  have reopened := reopened _ _ (rfl : Document.load (pinnedDisk pinnedBag) ⟨"/s.json"⟩ = start.bag) whole
  generalize (Pinning.run start (pinnedDisk pinnedBag) pinnings).1 = after at *
  have effect : Settings.favorites after.bag =
      [⟨"/usr", "usr", none⟩, ⟨"/Home", "Home", none⟩] := by
    rw [kept, read]
    decide +kernel
  have path : start.path = ⟨"/s.json"⟩ := rfl
  have written : ∀ bag, (pinnedDisk pinnedBag).replace ⟨"/s.json"⟩ (Document.contents bag) =
      (pinnedDisk bag, .ok ()) := fun _ => rfl
  rw [path] at reopened
  refine ⟨effect, ?_, fun added => ?_, reopened _ _ true (written after.bag)⟩
  · rw [(others "width" (by decide +kernel)).2, loaded]
    rfl
  · have index := (toggles (pinnedDisk pinnedBag) (.named "/USR" "usr") none).added.mp added
    rw [favoriteIndex?, effect] at index
    exact absurd index (by decide +kernel)

end Settings
end Waymark

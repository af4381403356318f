import Waymark.Proofs.Bag.Dictionary
/-!
# Many values set one after another

What becomes of the property of a name when many members are set: only those that are given under a
spelling of that name matter to it.
-/

namespace Waymark

def Property.take (property : Property) (value : Json) : Property :=
  if property.value.same value then property else { property with value }

def Property.merge (old : Option Property) (member : String × Json) : Option Property :=
  some ((old.map fun property => property.take member.2).getD (Bag.ofMember member))

namespace Bag

variable {bag : Bag} {name key : String} {value : Json}

theorem findKey?_set_self (nonempty : name ≠ "") :
    (bag.set name value).1.findKey? (Text.lower name) =
      Property.merge (bag.findKey? (Text.lower name)) (name, value) := by
  have same := congrFun (congrArg Prod.fst (findKey?_set bag name value)) (Text.lower name)
  refine same.symm.trans ?_
  unfold Dictionary.set
  dsimp only
  rw [if_neg nonempty]
  cases found : bag.findKey? (Text.lower name) with
  | none => exact Function.update_self _ _ _
  | some property =>
      rw [Property.merge, Option.map_some, Option.getD_some, Property.take]
      dsimp only
      split
      · exact found
      · exact Function.update_self _ _ _

theorem findKey?_setAll_filter (bag : Bag) (members : List (String × Json)) (nonempty : key ≠ "") :
    (bag.setAll members).findKey? key =
      (members.filter fun member => Text.lower member.1 = key).foldl Property.merge
        (bag.findKey? key) := by
  induction members generalizing bag with
  | nil => rfl
  | cons first rest ih =>
      refine (ih (bag.set first.1 first.2).1).trans ?_
      by_cases here : Text.lower first.1 = key
      · have named : first.1 ≠ "" := fun unnamed => nonempty (by rw [← here, unnamed]; rfl)
        have merged := @findKey?_set_self bag first.1 first.2 named
        rw [here] at merged
        rw [merged, List.filter_cons_of_pos (by simpa using here), List.foldl_cons]
      · rw [findKey?_set_of_ne (Ne.symm here), List.filter_cons_of_neg (by simpa using here)]

end Bag
end Waymark

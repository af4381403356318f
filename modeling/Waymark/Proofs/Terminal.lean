import Waymark.Proofs.Json.Converted
import Waymark.Terminal
/-!
# Terminals in documents

Terminals are read back as they were from the objects that they are written as, whether these have
their members in the order of the names or as they are declared.
-/

namespace Waymark.Terminal

open Json

theorem ofMembers_members (terminal : Terminal) :
    Json.ofMembers terminal.members =
      .object (ofOptional "changeDirectoryCommand" terminal.changeDirectory ++
        [("commandLine", .string terminal.commandLine), ("displayName", .string terminal.name),
          ("isWsl", .boolean terminal.isSubsystem), ("key", .string terminal.key),
          ("supportsShellSync", .boolean terminal.followsShell)]) := by
  rw [Json.ofMembers, members]
  cases terminal.changeDirectory <;>
    simp +decide only [ofOptional, orderMembers, insertMember, List.cons_append, List.nil_append,
      List.foldl_cons, List.foldl_nil, if_true, if_false]

theorem decoder_ofMembers (terminal : Terminal) :
    decoder (Tree.ofJson (.ofMembers terminal.members)) = .ok terminal := by
  obtain ⟨key, name, commandLine, changeDirectory, isSubsystem, followsShell⟩ := terminal
  rw [ofMembers_members]
  cases changeDirectory <;>
    simp +decide [ofOptional, Tree.ofJson, Tree.ofMembers, decoder, Decoder.record,
      Decoder.fieldsOf, Decoder.fieldsByName, fields, Decoder.name, Field.of, Decoder.text,
      Decoder.boolean, Decoder.optional, ofDraft?, bind, Except.bind, Except.map]

theorem decoder_members (terminal : Terminal) :
    decoder (Tree.ofJson (.object terminal.members)) = .ok terminal := by
  obtain ⟨key, name, commandLine, changeDirectory, isSubsystem, followsShell⟩ := terminal
  cases changeDirectory <;>
    simp +decide [members, ofOptional, Tree.ofJson, Tree.ofMembers, decoder, Decoder.record,
      Decoder.fieldsOf, Decoder.fieldsByName, fields, Decoder.name, Field.of, Decoder.text,
      Decoder.boolean, Decoder.optional, ofDraft?, bind, Except.bind, Except.map]

theorem members_plain (terminal : Terminal) : ∀ member ∈ terminal.members, member.2.IsPlain := by
  cases change : terminal.changeDirectory <;> simp [members, change, ofOptional, IsPlain]

end Waymark.Terminal

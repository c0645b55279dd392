import KasterCti.Library.DialplanCode

/-!
# Printing a dialplan

Sections as the lines of a file: a header, `exten => name,1,App(args)` for the first
priority of a block and ` same => n(label),App(args)` for the ones after it.
-/

namespace Dialplan

open Lines

def Step.sameText (code : Step) : Text :=
  match code.label with
  | some label => " same => n(".toList ++ label ++ "),".toList ++ appText code.app code.args
  | none => " same => n,".toList ++ appText code.app code.args

def Block.extenText (block : Block) : Text :=
  "exten => ".toList ++ block.exten ++ ",1,".toList ++ appText block.first.app block.first.args

def Block.texts (block : Block) : List Text :=
  block.extenText :: block.rest.map Step.sameText

def Section.headerText (sec : Section) : Text := '[' :: sec.context ++ [']']

def Section.texts (sec : Section) : List Text :=
  sec.headerText :: sec.blocks.flatMap Block.texts

/-- Lines joined to a text. -/
def joined (ls : List Text) : String := unlines (ls.map String.ofList)

def Block.text (block : Block) : String := joined block.texts

def Section.text (sec : Section) : String := joined sec.texts

end Dialplan

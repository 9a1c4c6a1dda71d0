import PhasePortrait.Path
import PhasePortrait.Text.Quoted

/-!
# Names of picture files

The end of a file's name says in which format its picture is to be written. Many formats are known
by their ends, and one of them is written.
-/

namespace PhasePortrait.PictureName

/-- A format of pictures. -/
inductive Format where
  /-- The one that is written. -/
  | png
  /-- One that is known by its name only. -/
  | other (name : String)
deriving DecidableEq, Repr

/-- Why a picture is not written to a file of some name. -/
inductive Fault where
  /-- The name has no end. -/
  | noEnding
  /-- The end is that of no known format. -/
  | unknownEnding (ending : String)
  /-- The format is known and not written. -/
  | notWritten (name : String)
deriving DecidableEq, Repr

/-- What is told to the user. -/
def Fault.message : Fault → String
  | noEnding => "The image format could not be determined"
  | unknownEnding ending =>
    "The file extension `." ++ Text.quoted ending ++ "` was not recognized as an image format"
  | notWritten name => "The image format `" ++ name ++ "` is not supported"

/-- The ends of the format that is written. -/
def writtenEndings : List String := ["png", "apng"]

/-- The other formats, with their ends. -/
def otherFormats : List (String × List String) := [
  ("Avif", ["avif"]),
  ("Jpeg", ["jpg", "jpeg", "jfif"]),
  ("Gif", ["gif"]),
  ("WebP", ["webp"]),
  ("Tiff", ["tif", "tiff"]),
  ("Tga", ["tga"]),
  ("Dds", ["dds"]),
  ("Bmp", ["bmp"]),
  ("Ico", ["ico"]),
  ("Hdr", ["hdr"]),
  ("OpenExr", ["exr"]),
  ("Pnm", ["pbm", "pam", "ppm", "pgm", "pnm"]),
  ("Farbfeld", ["ff"]),
  ("Qoi", ["qoi"])]

/-- The format that the end of a path asks for; capitals count as small. -/
def format? (path : String) : Except Fault Format :=
  match Path.ending? path with
  | none => .error .noEnding
  | some ending =>
    let small := ending.toLower
    if writtenEndings.contains small then .ok .png
    else
      match otherFormats.find? fun format => format.2.contains small with
      | some format => .ok (.other format.1)
      | none => .error (.unknownEnding ending)

/-- Refuses a format that is not written. -/
def Format.check : Format → Except Fault Unit
  | png => .ok ()
  | other name => .error (.notWritten name)

end PhasePortrait.PictureName

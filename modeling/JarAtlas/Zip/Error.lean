/-! Why an archive, or the data of one of its members, cannot be read. -/
namespace JarAtlas
namespace Zip

inductive Error where
  | noEndRecord
  | commentPastEnd
  | directoryPastEnd
  | noDirectory
  | noLocalHeader
  | unknownMethod
  | encrypted
  | truncated
  | isDirectory
  deriving DecidableEq, Repr

namespace Error

def message : Error → String
  | .noEndRecord => "invalid Zip archive: Could not find EOCD"
  | .commentPastEnd => "invalid Zip archive: EOCD comment exceeds file boundary"
  | .directoryPastEnd => "invalid Zip archive: Invalid CDFH offset in EOCD"
  | .noDirectory => "invalid Zip archive: No CDFH found"
  | .noLocalHeader => "invalid Zip archive: Invalid local file header"
  | .unknownMethod => "unsupported Zip archive: Compression method not supported"
  | .encrypted => "unsupported Zip archive: Password required to decrypt file"
  | .truncated | .isDirectory => "i/o error"

def cause? : Error → Option String
  | .truncated => some "failed to fill whole buffer"
  | .isDirectory => some "Is a directory (os error 21)"
  | _ => none

end Error

inductive DataError where
  | wrongChecksum
  | corrupt
  | incomplete
  deriving DecidableEq, Repr

def DataError.message : DataError → String
  | .wrongChecksum => "Invalid checksum"
  | .corrupt => "corrupt deflate stream"
  | .incomplete => "incomplete deflate stream"

end Zip
end JarAtlas

import JarAtlas.Dot.PackageList

/-! Where the characters of package names and of shortened texts come from: from the text that was
cut, and apart from that there are only dots. -/
namespace JarAtlas
namespace Dot

open Text

end Dot
end JarAtlas

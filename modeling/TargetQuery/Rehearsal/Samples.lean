/-!
# Sample answers

What frontends print for a few typical targets.
-/

namespace TargetQuery.Samples

def macos : String :=
  "\x7b\"target\":\x7b\"triple\":\"x86_64-apple-macosx10.15\","
    ++ "\"unversionedTriple\":\"x86_64-apple-macosx\",\"moduleTriple\":\"x86_64-apple-macos\","
    ++ "\"librariesRequireRPath\":false\x7d\x7d"

/-- A macOS target with a Mac Catalyst variant. -/
def catalyst : String :=
  "\x7b\n"
    ++ "  \"compilerVersion\": \"Swift version 5.3 (swiftlang-1200.0.29.2 clang-1200.0.30.1)\",\n"
    ++ "  \"target\": \x7b\n"
    ++ "    \"triple\": \"x86_64-apple-macosx10.15\",\n"
    ++ "    \"unversionedTriple\": \"x86_64-apple-macosx\",\n"
    ++ "    \"moduleTriple\": \"x86_64-apple-macos\",\n"
    ++ "    \"swiftRuntimeCompatibilityVersion\": \"5.0\",\n"
    ++ "    \"librariesRequireRPath\": false\n"
    ++ "  \x7d,\n"
    ++ "  \"targetVariant\": \x7b\n"
    ++ "    \"triple\": \"x86_64-apple-ios13.1-macabi\",\n"
    ++ "    \"unversionedTriple\": \"x86_64-apple-ios-macabi\",\n"
    ++ "    \"moduleTriple\": \"x86_64-apple-ios-macabi\",\n"
    ++ "    \"swiftRuntimeCompatibilityVersion\": \"5.1\",\n"
    ++ "    \"librariesRequireRPath\": false\n"
    ++ "  \x7d,\n"
    ++ "  \"paths\": \x7b\n"
    ++ "    \"runtimeLibraryPaths\": [\"/usr/lib/swift\"],\n"
    ++ "    \"runtimeLibraryImportPaths\": [\"/usr/lib/swift\", \"/usr/lib/swift/macosx\"],\n"
    ++ "    \"runtimeResourcePath\": \"/usr/lib/swift\"\n"
    ++ "  \x7d\n"
    ++ "\x7d"

/-- A Linux host with runtime paths. -/
def linux : String :=
  "\x7b\n"
    ++ "  \"target\": \x7b\n"
    ++ "    \"triple\": \"x86_64-unknown-linux-gnu\",\n"
    ++ "    \"unversionedTriple\": \"x86_64-unknown-linux-gnu\",\n"
    ++ "    \"moduleTriple\": \"x86_64-unknown-linux-gnu\",\n"
    ++ "    \"librariesRequireRPath\": false\n"
    ++ "  \x7d,\n"
    ++ "  \"paths\": \x7b\n"
    ++ "    \"runtimeLibraryPaths\": [\"/usr/lib/swift/linux\"],\n"
    ++ "    \"runtimeLibraryImportPaths\": [\"/usr/lib/swift/linux\", "
    ++ "\"/usr/lib/swift/linux/x86_64\"],\n"
    ++ "    \"runtimeResourcePath\": \"/usr/lib/swift\"\n"
    ++ "  \x7d\n"
    ++ "\x7d"

def all : List (String × String) := [("macos", macos), ("catalyst", catalyst), ("linux", linux)]

end TargetQuery.Samples

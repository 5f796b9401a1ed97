/-!
# Help

What the program tells of itself.
-/

namespace DirectoryWatch.CommandLine

def versionLines : List String := ["dirwatch 0.1.0"]

def helpLines : List String :=
  ["Command-line front end for dirwatch",
    "",
    "Usage: dirwatch [OPTIONS] <PATHS>...",
    "",
    "Arguments:",
    "  <PATHS>...  Directories to watch",
    "",
    "Options:",
    "      --latency-ms <LATENCY_MS>  Batching latency in milliseconds (default: 100)",
    "  -r, --recursive                Watch subdirectories too",
    "      --ignore <PATTERN>         Ignore pattern in gitignore syntax (repeatable)",
    "  -c, --config <FILE>            TOML configuration file; flags override its values",
    "      --json                     Print one JSON object per event",
    "      --duration <SECS>          Stop after this many seconds",
    "  -v, --verbose...               More log output (-v debug, -vv trace)",
    "  -q, --quiet                    Only log errors",
    "  -h, --help                     Print help",
    "  -V, --version                  Print version"]

end DirectoryWatch.CommandLine

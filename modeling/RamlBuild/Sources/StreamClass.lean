import RamlBuild.Text.Lines

/-!
# Stream classes

The companion of a model implementation that writes its body straight to the response stream.
-/

namespace RamlBuild

open Text

/-- The lines of a class that extends `extended` and streams its body. -/
def streamLines (package className extended : String) : List Line :=
  ["package " ++ package ++ ";", "",
    "import java.io.IOException;",
    "import java.io.OutputStream;",
    "import java.util.function.Consumer;", "",
    "import jakarta.ws.rs.WebApplicationException;",
    "import jakarta.ws.rs.core.StreamingOutput;", "",
    "public class " ++ className ++ " extends " ++ extended ++ " implements StreamingOutput \x7b",
    "  private final Consumer<OutputStream> _streamer;", "",
    "  public " ++ className ++ "(Consumer<OutputStream> streamer) \x7b",
    "    _streamer = streamer;",
    "  \x7d", "",
    "  @Override",
    "  public void write(OutputStream output) throws IOException, WebApplicationException \x7b",
    "    _streamer.accept(output);",
    "  \x7d",
    "\x7d"].map String.toList

/-- The source of a class that extends `extended` and streams its body. -/
def streamClass (package className extended : String) : String :=
  ofLines (streamLines package className extended)

end RamlBuild

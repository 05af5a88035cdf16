/-! # The support file of controllers

The class that every controller extends. It sends the result of an operation, or the error that the
operation failed with.
-/
namespace TypedApi.Support

/-- The lines of `base-api.ts`. -/
def baseApiLines : List String :=
  ["import type \x7b Response \x7d from \"express\";",
   "import \x7b ValidationError \x7d from \"./validate\";",
   "",
   "/** Exception type that holds a HTTP status and body. */",
   "export class ApiError extends Error \x7b",
   "\treadonly status: number;",
   "\treadonly body: unknown;",
   "",
   "\t/**",
   "\t * Construct this `ApiError`.",
   "\t *",
   "\t * @param status",
   "\t *   The HTTP status to send.",
   "\t * @param body",
   "\t *   The HTTP body to send.",
   "\t * @param message",
   "\t *   The exception message. Defaults to the body.",
   "\t */",
   "\tconstructor(status: number, body: unknown, message: string = JSON.stringify(body)) \x7b",
   "\t\tsuper(message);",
   "\t\tthis.status = status;",
   "\t\tthis.body = body;",
   "\t\x7d",
   "\x7d",
   "",
   "/** Base class for API controllers. */",
   "export abstract class BaseApi \x7b",
   "\t/**",
   "\t * Send the result of an endpoint, or the error it failed with.",
   "\t *",
   "\t * A `ValidationError` of the request is reported as `400`, an `ApiError`",
   "\t * with its own status and body, anything else as `500`.",
   "\t *",
   "\t * @param res",
   "\t *   Express response object.",
   "\t * @param data",
   "\t *   Promise that resolves to the JSON response payload.",
   "\t */",
   "\tasync handleResponse<T>(res: Response, data: Promise<T>): Promise<void> \x7b",
   "\t\tlet body: string | undefined;",
   "\t\ttry \x7b",
   "\t\t\tbody = JSON.stringify(await data);",
   "\t\t\x7d catch (error) \x7b",
   "\t\t\tif (error instanceof ApiError) \x7b",
   "\t\t\t\tres.status(error.status);",
   "\t\t\t\tbody = JSON.stringify(error.body);",
   "\t\t\t\x7d else if (error instanceof ValidationError) \x7b",
   "\t\t\t\tres.status(400);",
   "\t\t\t\tbody = JSON.stringify(error.message);",
   "\t\t\t\x7d else \x7b",
   "\t\t\t\tconsole.error(error);",
   "\t\t\t\tres.status(500);",
   "\t\t\t\tbody = JSON.stringify(\"Internal Server Error\");",
   "\t\t\t\x7d",
   "\t\t\x7d",
   "\t\tif (body) \x7b",
   "\t\t\tres.set(\"Content-Type\", \"application/json\").send(body);",
   "\t\t\x7d else \x7b",
   "\t\t\tres.send();",
   "\t\t\x7d",
   "\t\x7d",
   "",
   "\t/**",
   "\t * Convert the result of an endpoint to JSON.",
   "\t *",
   "\t * A result that cannot be printed is a fault of the server, so any failure",
   "\t * is rethrown as a plain `Error` and reported as `500`.",
   "\t *",
   "\t * @param print",
   "\t *   Function that prints the result.",
   "\t * @return",
   "\t *   The printed result.",
   "\t */",
   "\tprotected printResponse<T>(print: () => T): T \x7b",
   "\t\ttry \x7b",
   "\t\t\treturn print();",
   "\t\t\x7d catch (error) \x7b",
   "\t\t\tthrow new Error(`Invalid response: $\x7berror instanceof Error ? error.message : String(error)\x7d`);",
   "\t\t\x7d",
   "\t\x7d",
   "\x7d",
   ""]

end TypedApi.Support
